import Conformance.Binary64.Rounding
import Conformance.Decimal.Power

/-! # The fewest decimal digits that read back as a given number

For each number of digits, the two neighbours of the number on that decimal grid are tried; the
first grid with a neighbour that rounds back to the number wins.
-/

namespace Conformance.Decimal

/-- `coefficient * 10 ^ exponent` -/
structure Digits where
  coefficient : Nat
  exponent : Int
deriving DecidableEq

inductive Tie where
  | upward
  | toEven
deriving DecidableEq

/-- The largest power of ten not above `num / den`, for positive `num` and `den`. -/
def decimalExponent (num den : Nat) : Int :=
  if den ≤ num then ((Nat.toDigits 10 (num / den)).length : Int) - 1
  else
    let k := (Nat.toDigits 10 (den / num)).length
    if den ≤ num * tenTo (k - 1) then -((k - 1 : Nat) : Int) else -(k : Int)

/-- The decimals that round to a number: those between `low / den` and `high / den`, the two ends
included iff the significand is even. -/
structure Interval where
  low : Nat
  high : Nat
  den : Nat
  closed : Bool

/-- The magnitude itself is `middle / den` of the same denominator. -/
structure Target where
  middle : Nat
  interval : Interval

/-- Counted in quarters of the last unit; below a power of two the units are half as large. -/
def target (x : Binary64) : Target :=
  let m := x.significand
  let q := x.exponent - 2
  let smaller := m = Binary64.exponentWeight && 2 * Binary64.exponentWeight ≤ x.magnitude
  let below := if smaller then 1 else 2
  { middle := (4 * m) <<< q.toNat
    interval :=
      { low := (4 * m - below) <<< q.toNat, high := (4 * m + 2) <<< q.toNat
        den := 1 <<< (-q).toNat, closed := m % 2 == 0 } }

def Interval.contains (i : Interval) (k : Nat) (e : Int) : Bool :=
  let n := k * tenTo e.toNat * i.den
  let s := tenTo (-e).toNat
  if i.closed then i.low * s ≤ n && n ≤ i.high * s else i.low * s < n && n < i.high * s

def gridPoint? (tie : Tie) (t : Target) (e : Int) : Option Nat :=
  let num := t.middle * tenTo (-e).toNat
  let den := t.interval.den * tenTo e.toNat
  let k := num / den
  let r := num % den
  let upper := den < 2 * r || (2 * r == den && (tie == .upward || k % 2 == 1))
  match t.interval.contains k e, t.interval.contains (k + 1) e with
  | true, true => some (if upper then k + 1 else k)
  | true, false => some k
  | false, true => some (k + 1)
  | false, false => none

/-- Tries grids of `10 ^ e`, `10 ^ (e - 1)`, …; the last one is taken as it is. -/
def search (tie : Tie) (t : Target) : Nat → Int → Digits
  | 0, e => ⟨t.middle * tenTo (-e).toNat / (t.interval.den * tenTo e.toNat), e⟩
  | n + 1, e =>
    match gridPoint? tie t e with
    | some k => ⟨k, e⟩
    | none => search tie t n (e - 1)

/-- A coefficient that rounded up to a power of ten is that power's first digit. -/
def Digits.normal (d : Digits) : Digits :=
  let zeros := ((Nat.toDigits 10 d.coefficient).reverse.takeWhile (· == '0')).length
  if d.coefficient = 0 then d else ⟨d.coefficient / tenTo zeros, d.exponent + zeros⟩

/-- Shortest digits of a finite magnitude that is not zero. Seventeen always suffice. -/
def shortest (tie : Tie) (x : Binary64) : Digits :=
  let t := target x
  (search tie t 17 (decimalExponent t.middle t.interval.den)).normal

end Conformance.Decimal
