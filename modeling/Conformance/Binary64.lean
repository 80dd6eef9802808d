/-! # Binary floating point by bit pattern

A number is its 64 bits. Comparison reads them as naturals, and arithmetic is exact on ratios of
naturals with one rounding at the end.
-/

namespace Conformance

structure Binary64 where
  bits : UInt64
deriving DecidableEq

namespace Binary64

def signWeight : Nat := 0x8000000000000000

/-- The place value of the last bit of the exponent field. -/
def exponentWeight : Nat := 0x10000000000000

/-- Bits below the sign at infinity; every larger magnitude is not a number. -/
def infinityMagnitude : Nat := 2047 * exponentWeight

def magnitude (x : Binary64) : Nat := x.bits.toNat % signWeight

def isNegative (x : Binary64) : Bool := signWeight ≤ x.bits.toNat

def ofMagnitude (negative : Bool) (n : Nat) : Binary64 :=
  ⟨UInt64.ofNat (if negative then signWeight + n else n)⟩

def zero : Binary64 := ofMagnitude false 0

def one : Binary64 := ofMagnitude false (1023 * exponentWeight)

def infinity : Binary64 := ofMagnitude false infinityMagnitude

/-- The positive quiet pattern. -/
def nan : Binary64 := ofMagnitude false (infinityMagnitude + exponentWeight / 2)

def neg (x : Binary64) : Binary64 := ofMagnitude (!x.isNegative) x.magnitude

def isNaN (x : Binary64) : Bool := infinityMagnitude < x.magnitude

def isFinite (x : Binary64) : Bool := x.magnitude < infinityMagnitude

def isZero (x : Binary64) : Bool := x.magnitude == 0

/-! ## Order -/

/-- Position in the order of all patterns: negative zero just below zero, and what is not a
number beyond the infinity of its sign. -/
def rankKey (x : Binary64) : Int :=
  if x.isNegative then -(x.magnitude : Int) - 1 else x.magnitude

/-- Position on the number line, where the two zeros coincide. -/
def lineKey (x : Binary64) : Int :=
  if x.isNegative then -(x.magnitude : Int) else x.magnitude

def compareRank (x y : Binary64) : Ordering := compare x.rankKey y.rankKey

/-- Numeric comparison; what is not a number compares with nothing. -/
def compareLine? (x y : Binary64) : Option Ordering :=
  if x.isNaN || y.isNaN then none else some (compare x.lineKey y.lineKey)

theorem magnitude_lt (x : Binary64) : x.magnitude < signWeight := Nat.mod_lt _ (by decide)

/-- The rank key determines the pattern. -/
theorem rankKey_injective {x y : Binary64} (h : x.rankKey = y.rankKey) : x = y := by
  have hx := x.bits.toNat_lt
  have hy := y.bits.toNat_lt
  have hs : signWeight = 9223372036854775808 := rfl
  have hb : x.bits.toNat = y.bits.toNat := by
    simp only [rankKey, isNegative, magnitude, decide_eq_true_eq] at h
    split at h <;> split at h <;> rw [hs] at * <;> omega
  cases x; cases y
  simp only [mk.injEq]
  exact UInt64.toNat_inj.mp hb

theorem compareRank_eq_iff {x y : Binary64} : compareRank x y = .eq ↔ x = y := by
  constructor
  · intro h
    exact rankKey_injective (Std.LawfulEqOrd.eq_of_compare h)
  · rintro rfl
    exact Std.ReflOrd.compare_self

end Binary64

end Conformance
