import Conformance.Text.Casing

/-! # Characters that are equal up to case -/

namespace Conformance.Text

def caseVariants (c : Char) : List Char :=
  foldChar c :: CaseRun.preimages foldRuns (foldChar c)

def foldable : List Char :=
  let upper := foldRuns.flatMap CaseRun.chars
  upper ++ upper.map foldChar

def CharClass.upToCase (k : CharClass) : CharClass :=
  k.union (ofChars (foldable.filter fun c => (caseVariants c).any k.mem))

end Conformance.Text
