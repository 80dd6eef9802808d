import Conformance.Decimal.Shortest

/-! # Layout of decimal numbers -/

namespace Conformance.Decimal

/-- When a number is written out in full, which way equally short spellings go, and the sign of an
exponent. -/
structure Layout where
  /-- Least exponent of the leading digit that is written out. -/
  least : Int
  /-- Greatest exponent of the leading digit that is written out. -/
  greatest : Int
  tie : Tie
  /-- Whether an exponent that is not negative has a sign. -/
  plus : Bool

def Layout.message : Layout := ⟨-4, 15, .upward, false⟩

def Layout.document : Layout := ⟨-5, 15, .toEven, true⟩

/-- With a point, and at least one digit on either side of it. -/
def positional (digits : List Char) (exponent : Int) : List Char :=
  let point := digits.length + exponent
  if point ≤ 0 then
    ['0', '.'] ++ List.replicate (-point).toNat '0' ++ digits
  else if 0 ≤ exponent then
    digits ++ List.replicate exponent.toNat '0' ++ ['.', '0']
  else
    digits.take point.toNat ++ '.' :: digits.drop point.toNat

def renderExponent (l : Layout) (e : Int) : List Char :=
  let digits := (toString e).toList
  if l.plus && 0 ≤ e then '+' :: digits else digits

/-- With the point behind the first digit, left out when no digit follows. -/
def scientific (l : Layout) (digits : List Char) (leading : Int) : List Char :=
  let fraction := match digits.drop 1 with
    | [] => []
    | rest => '.' :: rest
  digits.take 1 ++ fraction ++ 'e' :: renderExponent l leading

def renderDigits (l : Layout) (d : Digits) : List Char :=
  let digits := Nat.toDigits 10 d.coefficient
  let leading := digits.length + d.exponent - 1
  if l.least ≤ leading && leading ≤ l.greatest then positional digits d.exponent
  else scientific l digits leading

def renderMagnitude (l : Layout) (x : Binary64) : List Char :=
  if x.isZero then ['0', '.', '0'] else renderDigits l (shortest l.tie x)

def renderFinite (l : Layout) (x : Binary64) : List Char :=
  if x.isNegative then '-' :: renderMagnitude l x else renderMagnitude l x

def render (l : Layout) (x : Binary64) : List Char :=
  if x.isFinite then renderFinite l x
  else if x.isNaN then "NaN".toList
  else if x.isNegative then "-inf".toList
  else "inf".toList

end Conformance.Decimal
