import Conformance.Pattern
import Conformance.Text.Utf8

/-! # Sizes of automata

A pattern is recognised by an automaton over bytes, which reads a text forwards or backwards. Its
size is that of its states before any of them are joined: a record for each state, and room for each
way out of a state that has several. Both automata of a pattern have to fit into the size allowed.
-/

namespace Conformance.Pattern

inductive Direction where
  | forward
  | backward
deriving DecidableEq

namespace Size

def state : Nat := 32

def exit : Nat := 4

def edge : Nat := 8

def fork (n : Nat) : Nat := state + n * exit

def lookup (n : Nat) : Nat := state + n * edge

def total (sizes : List Nat) : Nat := sizes.foldr (· + ·) 0

/-! ## Classes

Forwards, two places in the spellings are one state when the same may follow. Backwards, they are
one when the same stands before them. -/

def follow (first : Text.Spelling) (groups : List (Text.ByteRange × List Text.Spelling)) :
    List (Text.ByteRange × List Text.Spelling) :=
  match first, groups with
  | [], groups => groups
  | r :: tail, (q, tails) :: more =>
    if r = q then (q, tail :: tails) :: more else (r, [tail]) :: (q, tails) :: more
  | r :: tail, [] => [(r, [tail])]

/-- Spellings that begin alike stand side by side: their first ranges, each with what may follow. -/
def followers (spellings : List Text.Spelling) : List (Text.ByteRange × List Text.Spelling) :=
  spellings.foldr follow []

/-- What may follow after at most `n` bytes, the end apart. -/
def continuations : Nat → List (List Text.Spelling) → List (List Text.Spelling)
  | 0, _ => []
  | n + 1, places =>
    let further := (places.filter (·.any (!·.isEmpty))).eraseDups
    further ++ continuations n (further.flatMap fun p => (followers p).map (·.2))

def forwardClass (spellings : List Text.Spelling) : Nat :=
  let places := (continuations 4 [spellings]).eraseDups
  state + total (places.map fun p => lookup (followers p).length)

/-- The ranges of a spelling behind those that it shares with the one before. -/
def unshared : Text.Spelling → Text.Spelling → Nat
  | r :: tail, q :: other => if r = q then unshared tail other else tail.length + 1
  | tail, _ => tail.length

def backwardClass (spellings : List Text.Spelling) : Nat :=
  let added := List.zipWith unshared spellings ([] :: spellings)
  state + fork spellings.length + total added * state

def ofClass (d : Direction) (k : Text.CharClass) : Nat :=
  if k.ranges.all (·.2 ≤ 0x7F) then state + lookup k.ranges.length
  else match d with
    | .forward => forwardClass k.spellings
    | .backward => backwardClass k.spellings

/-! ## Choices among words

Words share their beginnings as far as they come in the same run: where a word ends, a new run
begins for the words after it. -/

/-- The words behind each first byte, for words that are not empty. -/
def byFirst (words : List (List UInt8)) : List (List (List UInt8)) :=
  (words.filterMap List.head?).eraseDups.map fun b =>
    words.filterMap fun
      | c :: tail => if c = b then some tail else none
      | [] => none

/-- Adds a word in front of the first run; an end begins a new one. -/
def addToRuns (word : List UInt8) (runs : List (List (List UInt8))) : List (List (List UInt8)) :=
  match word, runs with
  | [], runs => [] :: runs
  | _, run :: rest => (word :: run) :: rest
  | _, [] => [[word]]

def runs (words : List (List UInt8)) : List (List (List UInt8)) := words.foldr addToRuns [[]]

/-- Ends of words before any other word are one. -/
def joinEnds : List (List UInt8) → List (List UInt8)
  | [] :: [] :: rest => joinEnds ([] :: rest)
  | words => words

/-- The states behind a place, where `words` are read further; a place where nothing is read further
is the end, which is counted elsewhere. Words have fewer than `n` bytes. -/
def ofPlace : Nat → List (List UInt8) → Nat
  | 0, _ => 0
  | n + 1, words =>
    if words.all List.isEmpty then 0
    else
      let words := joinEnds words
      let runs := (runs words).map byFirst
      let lookups := runs.map fun heads =>
        match heads.length with
        | 0 => 0
        | 1 => state
        | k => lookup k
      let ways := (runs.filter (!·.isEmpty)).length + (words.filter List.isEmpty).length
      total lookups + fork ways + total (runs.flatten.map (ofPlace n))

def ofWords (d : Direction) (words : List (List Char)) : Nat :=
  let spelled := words.map fun w =>
    match d with
    | .forward => Text.bytes w
    | .backward => (Text.bytes w).reverse
  let longest := (spelled.map List.length).foldl max 0
  state + ofPlace (longest + 1) spelled

def words? : Pattern → Option (List (List Char))
  | .literal w => some [w]
  | .alt a b => return (← words? a) ++ (← words? b)
  | _ => none

/-! ## Repetition -/

/-- From the size of what is repeated. What may match nothing needs a way around it as well as a way
back. -/
def ofTimes (body : Nat) (advances : Bool) (least : Nat) : Option Nat → Nat
  | none =>
    if least = 0 then
      if advances then fork 2 + body else fork 2 + fork 2 + state + body
    else least * body + fork 2
  | some most =>
    let required := if least = 0 then state else least * body
    if least = most then required
    else if least = 0 ∧ most = 1 then fork 2 + state + body
    else required + state + (most - least) * (fork 2 + body)

/-! ## Patterns -/

def entry (branch : Bool) : Nat := if branch then exit else 0

/-- The two ends of a group are states that only the reading forwards needs. -/
def group : Direction → Nat
  | .forward => state + state
  | .backward => 0

/-- With `branch`, as a branch of the choice around it, which has a way into each of them. -/
def ofPattern (d : Direction) : Bool → Pattern → Nat
  | branch, .alt a b =>
    let inside := ofPattern d true a + ofPattern d true b
    if branch then inside
    else match words? (.alt a b) with
      | some words => ofWords d words
      | none => state + state + inside
  | branch, .empty | branch, .start | branch, .finish => entry branch + state
  | branch, .literal text => entry branch + (Text.bytes text).length * state
  | branch, .one k => entry branch + ofClass d k
  | branch, .group _ p => entry branch + group d + ofPattern d false p
  | branch, .seq a b => entry branch + ofPattern d false a + ofPattern d false b
  | branch, .times p least most =>
    entry branch + ofTimes (ofPattern d false p) p.alwaysAdvances least most

end Size

def isAnchoredFirst : Pattern → Bool
  | .start => true
  | .group _ p => p.isAnchoredFirst
  | .seq a b => a.isAnchoredFirst || (a.isWidthless && b.isAnchoredFirst)
  | .alt a b => a.isAnchoredFirst && b.isAnchoredFirst
  | .times p least _ => 0 < least && p.isAnchoredFirst
  | _ => false

def isAnchoredLast : Pattern → Bool
  | .finish => true
  | .group _ p => p.isAnchoredLast
  | .seq a b => b.isAnchoredLast || (b.isWidthless && a.isAnchoredLast)
  | .alt a b => a.isAnchoredLast && b.isAnchoredLast
  | .times p least _ => 0 < least && p.isAnchoredLast
  | _ => false

/-- With what it takes to skip text before a match, the match as a group of its own forwards, and
the state of success. -/
def size (d : Direction) (p : Pattern) : Nat :=
  let anchored := match d with
    | .forward => p.isAnchoredFirst
    | .backward => p.isAnchoredLast
  let skip := if anchored then Size.state else Size.fork 2 + Size.state + Size.lookup 1
  skip + Size.group d + Size.ofPattern d false p + Size.state

def sizeLimit : Nat := 10 * 1024 * 1024

def fits (p : Pattern) : Bool := p.size .forward ≤ sizeLimit && p.size .backward ≤ sizeLimit

end Conformance.Pattern
