import Conformance.Binary64

/-! # Exact ratios and their nearest floating-point numbers -/

namespace Conformance.Binary64

/-- The natural nearest to `num / den`; a half goes to the even neighbour. -/
def roundHalfEven (num den : Nat) : Nat :=
  let q := num / den
  let r := num % den
  if 2 * r < den then q else if den < 2 * r then q + 1 else q + q % 2

/-- The largest power of two not above `num / den`, for positive `num` and `den`. -/
def binaryExponent (num den : Nat) : Int :=
  let k : Int := (num.log2 : Int) - den.log2
  if den <<< k.toNat ≤ num <<< (-k).toNat then k else k - 1

/-- Significant bits, and the exponent of the smallest positive number. -/
structure Format where
  precision : Nat
  leastExponent : Int

def double : Format := ⟨53, -1074⟩

def single : Format := ⟨24, -149⟩

/-- The exponent of the unit in which a number of the size of `num / den` is counted. -/
def Format.unit (f : Format) (num den : Nat) : Int :=
  max (binaryExponent num den - (f.precision - 1)) f.leastExponent

/-- How many units the number nearest to `num / den` has. -/
def Format.count (f : Format) (num den : Nat) : Nat :=
  let q := f.unit num den
  roundHalfEven (num <<< (-q).toNat) (den <<< q.toNat)

/-- The number nearest to `num / den`, infinite where that is beyond the finite ones. Adding a
count to the exponent field carries over by itself when the count rounds up to a power of two. -/
def ofRatio (negative : Bool) (num den : Nat) : Binary64 :=
  if num = 0 then ofMagnitude negative 0
  else
    let exponentField := (double.unit num den + 1074).toNat
    ofMagnitude negative
      (min infinityMagnitude (exponentField * exponentWeight + double.count num den))

def ofInt (i : Int) : Binary64 := ofRatio (i < 0) i.natAbs 1

/-- A finite magnitude is `significand * 2 ^ exponent`. -/
def significand (x : Binary64) : Nat :=
  if x.magnitude < exponentWeight then x.magnitude
  else exponentWeight + x.magnitude % exponentWeight

def exponent (x : Binary64) : Int := max (x.magnitude / exponentWeight : Nat) 1 - 1075

def ratio (x : Binary64) : Nat × Nat :=
  (x.significand <<< x.exponent.toNat, 1 <<< (-x.exponent).toNat)

def mul (x y : Binary64) : Binary64 :=
  ofRatio (x.isNegative != y.isNegative) (x.ratio.1 * y.ratio.1) (x.ratio.2 * y.ratio.2)

/-- Quotient of two finite numbers, the second not zero. -/
def div (x y : Binary64) : Binary64 :=
  ofRatio (x.isNegative != y.isNegative) (x.ratio.1 * y.ratio.2) (x.ratio.2 * y.ratio.1)

/-- The nearest number of single precision, as a double. -/
def toSingle (x : Binary64) : Binary64 :=
  if !x.isFinite || x.isZero then x
  else
    let (num, den) := x.ratio
    let q := single.unit num den
    let m := single.count num den
    if 1 <<< 128 ≤ m <<< q.toNat then ofMagnitude x.isNegative infinityMagnitude
    else ofRatio x.isNegative (m <<< q.toNat) (1 <<< (-q).toNat)

end Conformance.Binary64
