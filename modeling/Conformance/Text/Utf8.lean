import Conformance.Text.CharClass

/-! # The bytes of a class of characters

A class of characters, written in UTF-8, is a list of spellings: sequences of ranges of bytes, where
any choice of a byte from each range spells a member. Spellings ascend, and no two share a
character.
-/

namespace Conformance.Text

abbrev ByteRange := Nat × Nat

abbrev Spelling := List ByteRange

/-- The code points that are written with the same number of bytes: a leading byte of at least
`lead`, and `trailing` bytes of six bits each behind it. -/
structure Band where
  first : Nat
  last : Nat
  lead : Nat
  trailing : Nat

/-- Surrogates are not written at all. -/
def bands : List Band := [
  ⟨0x0, 0x7F, 0x0, 0⟩, ⟨0x80, 0x7FF, 0xC0, 1⟩, ⟨0x800, 0xD7FF, 0xE0, 2⟩, ⟨0xE000, 0xFFFF, 0xE0, 2⟩,
  ⟨0x10000, 0x10FFFF, 0xF0, 3⟩]

def trailingByte : Nat := 0x80

def anyTrailing (k : Nat) : Spelling := List.replicate k (trailingByte, trailingByte + 0x3F)

/-- The numbers from `lo` to `hi`, with `k` digits in base 64 behind a leading one. Whole blocks of
equal leading digit are taken together; a part of a block stands at either end. -/
def spell (lead : Nat) : Nat → Nat → Nat → List Spelling
  | 0, lo, hi => [[(lead + lo, lead + hi)]]
  | k + 1, lo, hi =>
    let block := 1 <<< (6 * (k + 1))
    let inBlock (digit lo hi : Nat) : List Spelling :=
      (spell trailingByte k lo hi).map ((lead + digit, lead + digit) :: ·)
    let (a, x) := (lo / block, lo % block)
    let (b, y) := (hi / block, hi % block)
    if a = b then inBlock a x y
    else
      let (low, first) := if x = 0 then ([], a) else (inBlock a x (block - 1), a + 1)
      let (high, stop) := if y + 1 = block then ([], b + 1) else (inBlock b 0 y, b)
      let middle : List Spelling :=
        if first < stop then [(lead + first, lead + stop - 1) :: anyTrailing (k + 1)] else []
      low ++ middle ++ high

def spellRange (r : Nat × Nat) : List Spelling :=
  bands.flatMap fun band =>
    let lo := max r.1 band.first
    let hi := min r.2 band.last
    if lo ≤ hi then spell band.lead band.trailing lo hi else []

def CharClass.spellings (k : CharClass) : List Spelling := k.ranges.flatMap spellRange

def bytes (cs : List Char) : List UInt8 := cs.flatMap String.utf8EncodeChar

end Conformance.Text
