import Conformance.Text.Blank
import Conformance.Text.Folding
import Conformance.Text.Word

/-! # Classes of characters as patterns write them -/

namespace Conformance.Pattern

inductive Named where
  | digit
  | blank
  | word
deriving DecidableEq

def Named.chars : Named → Text.CharClass
  | .digit => Text.digit
  | .blank => Text.blank
  | .word => Text.word

inductive Item where
  | range (lo hi : Char)
  | named (n : Named) (negated : Bool)
deriving DecidableEq

def Item.ranges : Item → List (Nat × Nat)
  | .range lo hi => [(lo.toNat, hi.toNat)]
  | .named n negated => (if negated then n.chars.complement else n.chars).ranges

/-- Characters of any of the items, or of none of them. Without regard to case, a character stands
for all that are equal to it up to case; negation comes last. -/
structure CharSet where
  items : List Item
  negated : Bool
  ignoreCase : Bool
deriving DecidableEq

namespace CharSet

def listed (s : CharSet) : Text.CharClass := .ofRanges (s.items.flatMap Item.ranges)

def chars (s : CharSet) : Text.CharClass :=
  let k := if s.ignoreCase then s.listed.upToCase else s.listed
  if s.negated then k.complement else k

end CharSet

def anyInLine : Text.CharClass := (Text.CharClass.ofChars ['\n']).complement

def charClass (c : Char) (ignoreCase : Bool) : Text.CharClass :=
  .ofChars (c :: if ignoreCase then Text.caseVariants c else [])

end Conformance.Pattern
