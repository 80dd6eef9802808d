import Conformance.Text.CharClass

/-! # Patterns of text

A pattern has a normal form: no sequence or choice stands directly inside another of its kind on the
left, a sequence has no empty part, literals side by side are one literal, and a class of one
character is a literal. The functions that build patterns keep the form.
-/

namespace Conformance

inductive Pattern where
  | empty
  /-- The beginning of the text. -/
  | start
  /-- The end of the text. -/
  | finish
  | literal (text : List Char)
  | one (chars : Text.CharClass)
  /-- Groups have different numbers, so no two are equal. -/
  | group (number : Nat) (body : Pattern)
  | seq (a b : Pattern)
  | alt (a b : Pattern)
  /-- At least `least` times, and at most `most` times if that is bounded. -/
  | times (body : Pattern) (least : Nat) (most : Option Nat)
deriving DecidableEq

namespace Pattern

/-! ## Lengths of the texts that match

A class without members has no length. -/

def minLength? : Pattern → Option Nat
  | .empty | .start | .finish => some 0
  | .literal text => some text.length
  | .one k => if k.ranges.isEmpty then none else some 1
  | .group _ p => p.minLength?
  | .seq a b => return (← a.minLength?) + (← b.minLength?)
  | .alt a b => return min (← a.minLength?) (← b.minLength?)
  | .times p least _ => p.minLength?.map (· * least)

def maxLength? : Pattern → Option Nat
  | .empty | .start | .finish => some 0
  | .literal text => some text.length
  | .one k => if k.ranges.isEmpty then none else some 1
  | .group _ p => p.maxLength?
  | .seq a b => return (← a.maxLength?) + (← b.maxLength?)
  | .alt a b => return max (← a.maxLength?) (← b.maxLength?)
  | .times p _ most => return (← p.maxLength?) * (← most)

def isWidthless (p : Pattern) : Bool := p.maxLength? == some 0

def alwaysAdvances (p : Pattern) : Bool := p.minLength?.any (0 < ·)

/-! ## Sequences -/

def parts : Pattern → List Pattern
  | .empty => []
  | .seq a b => a.parts ++ b.parts
  | p => [p]

def ofParts : List Pattern → Pattern
  | [] => .empty
  | [p] => p
  | p :: rest => .seq p (ofParts rest)

def consPart : Pattern → List Pattern → List Pattern
  | .literal s, .literal t :: rest => .literal (s ++ t) :: rest
  | p, rest => p :: rest

def concat (ps : List Pattern) : Pattern := ofParts ((ps.flatMap parts).foldr consPart [])

/-! ## Classes and repetition -/

def ofClass (k : Text.CharClass) : Pattern :=
  match k.single? with
  | some c => .literal [c]
  | none => .one k

/-- What takes no character need not be repeated more than once. -/
def repeated (p : Pattern) (least : Nat) (most : Option Nat) : Pattern :=
  let (least, most) :=
    if p.isWidthless then (min least 1, some (min (most.getD 1) 1)) else (least, most)
  if most = some 0 then .empty
  else if least = 1 ∧ most = some 1 then p
  else .times p least most

/-! ## Choices -/

def branches : Pattern → List Pattern
  | .alt a b => a.branches ++ b.branches
  | p => [p]

/-- No branches at all match nothing. -/
def ofBranches : List Pattern → Pattern
  | [] => .one ⟨[]⟩
  | [p] => p
  | p :: rest => .alt p (ofBranches rest)

def singleChar? : Pattern → Option Char
  | .literal [c] => some c
  | _ => none

def class? : Pattern → Option Text.CharClass
  | .one k => some k
  | _ => none

/-- A choice of single characters, or of classes, is a class. -/
def classOf? (ps : List Pattern) : Option Text.CharClass :=
  match ps.mapM singleChar?, ps.mapM class? with
  | some cs, _ => some (.ofChars cs)
  | none, some ks => some (.ofRanges (ks.flatMap (·.ranges)))
  | none, none => none

def sharedStart : List Pattern → List Pattern → List Pattern
  | p :: ps, q :: qs => if p = q then p :: sharedStart ps qs else []
  | _, _ => []

def sharedParts (pss : List (List Pattern)) : List Pattern :=
  match pss with
  | ps :: rest => if pss.all (2 ≤ ·.length) then rest.foldl sharedStart ps else []
  | [] => []

/-- Parts that all branches begin with are taken out of the choice, at most `n` times. -/
def choiceWithin : Nat → List Pattern → Pattern
  | 0, ps => ofBranches ps
  | n + 1, ps =>
    let bs := ps.flatMap branches
    match bs, classOf? bs with
    | [p], _ => p
    | _, some k => ofClass k
    | _, none =>
      let shared := sharedParts (bs.map parts)
      if shared.isEmpty then ofBranches bs
      else
        let rest := bs.map fun b => ofParts (b.parts.drop shared.length)
        concat (shared ++ [choiceWithin n rest])

def nestingLimit : Nat := 250

/-- A choice among choices nests less deep after each step, so the limit is not reached. -/
def choice (ps : List Pattern) : Pattern := choiceWithin nestingLimit ps

end Pattern

end Conformance
