import Conformance.Pattern.Class
import Conformance.Pattern.Size

/-! # Reading patterns

Patterns are written with literals, classes in brackets, `.`, `^` and `$`, groups, alternatives,
repetition, the classes `\d`, `\s` and `\w`, and the flag `i`. A pattern is read in one pass, with
a stack of open groups. One that nests too deep, or whose automata are too large, is refused.
-/

namespace Conformance.Pattern

inductive Fault where
  | unclosedGroup
  | unopenedGroup
  | unclosedClass
  | nothingToRepeat
  | badCount
  | badEscape
  | badRange
  | unsupported
  | tooDeep
  | tooLarge
deriving DecidableEq

def Fault.message : Fault → String
  | .unclosedGroup => "unclosed group"
  | .unopenedGroup => "unopened group"
  | .unclosedClass => "unclosed character class"
  | .nothingToRepeat => "repetition operator missing expression"
  | .badCount => "invalid repetition count"
  | .badEscape => "invalid escape sequence"
  | .badRange => "invalid character class range"
  | .unsupported => "unsupported pattern"
  | .tooDeep => "pattern nests too deep"
  | .tooLarge => "pattern is too large"

/-- A pattern with the height of its written form, where characters, anchors and flags have none. -/
structure Part where
  pattern : Pattern
  height : Nat

namespace Part

def leaf (p : Pattern) : Part := ⟨p, 0⟩

/-- Several parts together are one higher than the highest of them. -/
def combine (build : List Pattern → Pattern) : List Part → Part
  | [] => leaf (build [])
  | [p] => p
  | ps => ⟨build (ps.map (·.pattern)), (ps.map (·.height)).foldl max 0 + 1⟩

def nest (p : Part) (build : Pattern → Pattern) : Except Fault Part :=
  if p.height < nestingLimit then .ok ⟨build p.pattern, p.height + 1⟩ else .error .tooDeep

end Part

/-- A group that is being read: the branches before the last bar, and what follows the bar, last
ones first. The flag holds to the end of the group. -/
structure Group where
  /-- None for a group without a number. -/
  number : Option Nat
  branches : List Part
  parts : List Part
  ignoreCase : Bool

namespace Group

def opened (number : Option Nat) (ignoreCase : Bool) : Group := ⟨number, [], [], ignoreCase⟩

def branch (g : Group) : Part := Part.combine concat g.parts.reverse

def body (g : Group) : Part := Part.combine choice (g.branch :: g.branches).reverse

def close (g : Group) : Except Fault Part :=
  g.body.nest fun p =>
    match g.number with
    | some n => .group n p
    | none => p

def add (g : Group) (p : Part) : Group := { g with parts := p :: g.parts }

def bar (g : Group) : Group := { g with branches := g.branch :: g.branches, parts := [] }

def repeatLast (g : Group) (least : Nat) (most : Option Nat) : Except Fault Group :=
  match g.parts with
  | [] => .error .nothingToRepeat
  | p :: rest => (p.nest (repeated · least most)).map fun q => { g with parts := q :: rest }

end Group

inductive ClassPlace where
  /-- Right behind the opening bracket. -/
  | opening
  /-- Behind hyphens at the beginning, which stand for themselves. -/
  | hyphens
  /-- Before an item. -/
  | item
  /-- Behind a character that may begin a range. -/
  | single (c : Char)
  | escape
  /-- Behind a class, which begins no range. -/
  | named
  | namedHyphen
  /-- Behind a character and a hyphen. -/
  | range (lo : Char)
  | rangeEscape (lo : Char)
deriving DecidableEq

inductive Mode where
  | plain
  | escape
  /-- Behind an opening parenthesis. -/
  | opened
  /-- Behind `(?`, with the flags so far in reverse order. -/
  | flags (read : List Char)
  /-- Behind flags for the rest of a group, which cannot be repeated. -/
  | afterFlags
  /-- Behind a repetition, which may be marked as reluctant. -/
  | afterRepeat
  /-- Inside braces, with the characters so far in reverse order. -/
  | count (read : List Char)
  | inClass (negated : Bool) (items : List Item) (place : ClassPlace)
deriving DecidableEq

structure State where
  group : Group
  outer : List Group
  opened : Nat
  mode : Mode

def State.initial : State := ⟨.opened none false, [], 0, .plain⟩

/-! ## Escapes -/

inductive Escaped where
  | char (c : Char)
  | named (n : Named) (negated : Bool)

def controls : List (Char × Char) :=
  [('a', '\x07'), ('f', '\x0c'), ('n', '\n'), ('r', '\r'), ('t', '\t'), ('v', '\x0b')]

def classLetters : List (Char × Named) := [('d', .digit), ('s', .blank), ('w', .word)]

/-- Punctuation, blanks and controls stand for themselves, but angle brackets cannot be escaped. -/
def isEscapable (c : Char) : Bool := c ≤ '\x7f' && !c.isAlphanum && c != '<' && c != '>'

def escaped (c : Char) : Except Fault Escaped :=
  match controls.lookup c, classLetters.lookup c, classLetters.lookup c.toLower with
  | some d, _, _ => .ok (.char d)
  | none, some n, _ => .ok (.named n false)
  | none, none, some n => .ok (.named n true)
  | none, none, none => if isEscapable c then .ok (.char c) else .error .badEscape

/-! ## Repetition counts -/

def digits? (cs : List Char) : Option Nat :=
  let cs := Text.trim cs
  let n := cs.foldl (fun n c => 10 * n + (c.toNat - '0'.toNat)) 0
  if !cs.isEmpty && cs.all Char.isDigit && n ≤ 0xFFFFFFFF then some n else none

/-- `n`, `n,` or `n,m`. -/
def bounds? (cs : List Char) : Option (Nat × Option Nat) := do
  let least ← digits? (cs.takeWhile (· ≠ ','))
  match cs.dropWhile (· ≠ ',') with
  | [] => return (least, some least)
  | _ :: rest =>
    if (Text.trim rest).isEmpty then return (least, none)
    else
      let most ← digits? rest
      if least ≤ most then return (least, some most) else none

/-! ## Steps -/

namespace State

def goOn (s : State) (g : Group) : State := { s with group := g, mode := .plain }

def add (s : State) (p : Part) : State := s.goOn (s.group.add p)

def addLeaf (s : State) (p : Pattern) : State := s.add (.leaf p)

def addChar (s : State) (c : Char) : State :=
  s.addLeaf (ofClass (charClass c s.group.ignoreCase))

def openGroup (s : State) : State :=
  ⟨.opened (some s.opened) s.group.ignoreCase, s.group :: s.outer, s.opened + 1, .opened⟩

def closeGroup (s : State) : Except Fault State :=
  match s.outer with
  | [] => .error .unopenedGroup
  | g :: rest =>
    s.group.close.map fun p => { s with group := g.add p, outer := rest, mode := .plain }

def repeatLast (s : State) (least : Nat) (most : Option Nat) : Except Fault State :=
  (s.group.repeatLast least most).map fun g => { s with group := g, mode := .afterRepeat }

def beginCount (s : State) : Except Fault State :=
  if s.group.parts.isEmpty then .error .nothingToRepeat else .ok { s with mode := .count [] }

/-- A character that no construct is waiting for. -/
def plain (s : State) (c : Char) : Except Fault State :=
  if c = '\\' then .ok { s with mode := .escape }
  else if c = '(' then .ok s.openGroup
  else if c = ')' then s.closeGroup
  else if c = '|' then .ok (s.goOn s.group.bar)
  else if c = '[' then .ok { s with mode := .inClass false [] .opening }
  else if c = '*' then s.repeatLast 0 none
  else if c = '+' then s.repeatLast 1 none
  else if c = '?' then s.repeatLast 0 (some 1)
  else if c = '\x7b' then s.beginCount
  else if c = '^' then .ok (s.addLeaf .start)
  else if c = '$' then .ok (s.addLeaf .finish)
  else if c = '.' then .ok (s.addLeaf (.one anyInLine))
  else .ok (s.addChar c)

def afterFlags (s : State) (c : Char) : Except Fault State :=
  if c ∈ ['*', '+', '?', '\x7b'] then .error .nothingToRepeat else s.plain c

def escape (s : State) (c : Char) : Except Fault State :=
  (escaped c).map fun
    | .char d => s.addChar d
    | .named n negated => s.addLeaf (.one ⟨(Item.named n negated).ranges⟩)

/-- A group without a number, in place of the one that the parenthesis has opened. -/
def plainGroup (s : State) (ignoreCase : Bool) : State := s.goOn (.opened none ignoreCase)

/-- Flags for the rest of the group around, in place of the one that the parenthesis has
opened. -/
def flagsAround (s : State) (ignoreCase : Bool) : Except Fault State :=
  match s.outer with
  | [] => .error .unopenedGroup
  | g :: rest =>
    .ok { s with
      group := { g.add (.leaf .empty) with ignoreCase }, outer := rest, mode := .afterFlags }

def flags (s : State) (read : List Char) (c : Char) : Except Fault State :=
  match read, c with
  | [], ':' => .ok (s.plainGroup s.group.ignoreCase)
  | ['i'], ':' => .ok (s.plainGroup true)
  | ['i', '-'], ':' => .ok (s.plainGroup false)
  | ['i'], ')' => s.flagsAround true
  | ['i', '-'], ')' => s.flagsAround false
  | _, ':' => .error .unsupported
  | _, ')' => .error .unsupported
  | _, _ => .ok { s with mode := .flags (c :: read) }

def count (s : State) (read : List Char) (c : Char) : Except Fault State :=
  if c = '\x7d' then
    match bounds? read.reverse with
    | some (least, most) => s.repeatLast least most
    | none => .error .badCount
  else .ok { s with mode := .count (c :: read) }

/-! ### Inside brackets -/

/-- A class is one high, and one more with several items. -/
def closeClass (s : State) (negated : Bool) (items : List Item) : State :=
  let k := CharSet.chars ⟨items.reverse, negated, s.group.ignoreCase⟩
  s.add ⟨ofClass k, if items.length ≤ 1 then 1 else 2⟩

def single (c : Char) : Item := .range c c

/-- The beginning of an item, where a closing bracket ends the class. -/
def classItem (s : State) (negated : Bool) (items : List Item) (c : Char) : Except Fault State :=
  if c = ']' then .ok (s.closeClass negated items)
  else if c = '[' then .error .unsupported
  else if c = '\\' then .ok { s with mode := .inClass negated items .escape }
  else .ok { s with mode := .inClass negated items (.single c) }

/-- The end of a range, which is not below its beginning. -/
def classRange (s : State) (negated : Bool) (items : List Item) (lo hi : Char) :
    Except Fault State :=
  if lo ≤ hi then .ok { s with mode := .inClass negated (.range lo hi :: items) .item }
  else .error .badRange

/-- Two equal signs of these would combine classes. -/
def isOperator (c : Char) : Bool := c = '&' || c = '~' || c = '-'

def classStep (s : State) (negated : Bool) (items : List Item) (place : ClassPlace) (c : Char) :
    Except Fault State :=
  match place with
  | .opening =>
    if c = '^' && !negated then .ok { s with mode := .inClass true items .opening }
    else if c = '-' then .ok { s with mode := .inClass negated (single c :: items) .hyphens }
    else if c = ']' then .ok { s with mode := .inClass negated [single c] .item }
    else s.classItem negated items c
  | .hyphens =>
    if c = '-' then .ok { s with mode := .inClass negated (single c :: items) .hyphens }
    else s.classItem negated items c
  | .item => s.classItem negated items c
  | .single d =>
    if c = d && isOperator c then .error .unsupported
    else if c = '-' then .ok { s with mode := .inClass negated items (.range d) }
    else s.classItem negated (single d :: items) c
  | .escape =>
    (escaped c).map fun
      | .char d => { s with mode := .inClass negated items (.single d) }
      | .named n neg => { s with mode := .inClass negated (.named n neg :: items) .named }
  | .named =>
    if c = '-' then .ok { s with mode := .inClass negated items .namedHyphen }
    else s.classItem negated items c
  | .namedHyphen =>
    if c = ']' then .ok (s.closeClass negated (single '-' :: items)) else .error .badRange
  | .range lo =>
    if c = ']' then .ok (s.closeClass negated (single '-' :: single lo :: items))
    else if c = '-' then .error .unsupported
    else if c = '\\' then .ok { s with mode := .inClass negated items (.rangeEscape lo) }
    else s.classRange negated items lo c
  | .rangeEscape lo => do
    match ← escaped c with
    | .char hi => s.classRange negated items lo hi
    | .named _ _ => .error .badRange

def step (s : State) (c : Char) : Except Fault State :=
  match s.mode with
  | .plain => s.plain c
  | .escape => s.escape c
  | .opened => if c = '?' then .ok { s with mode := .flags [] } else s.plain c
  | .flags read => s.flags read c
  | .afterFlags => s.afterFlags c
  | .afterRepeat => if c = '?' then .ok { s with mode := .plain } else s.plain c
  | .count read => s.count read c
  | .inClass negated items place => s.classStep negated items place c

def finish (s : State) : Except Fault Part :=
  match s.mode, s.outer with
  | .inClass _ _ _, _ => .error .unclosedClass
  | .escape, _ => .error .badEscape
  | .count _, _ => .error .badCount
  | _, _ :: _ => .error .unclosedGroup
  | _, [] => .ok s.group.body

end State

def read (s : String) : Except Fault Pattern := do
  let state ← s.toList.foldlM State.step State.initial
  let part ← state.finish
  if nestingLimit < part.height then .error .tooDeep
  else if part.pattern.fits then .ok part.pattern
  else .error .tooLarge

end Conformance.Pattern
