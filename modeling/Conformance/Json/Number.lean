import Conformance.Decimal.Reader
import Conformance.Json

/-! # Numbers in JSON text

Digits are collected into 64 bits as far as they fit. Scaling by a power of ten rounds the collected
digits, the power and the result, so it may miss the nearest number.
-/

namespace Conformance.Json

open Decimal (isAsciiDigit digitValue tenTo)

def unsignedLimit : Nat := 0x10000000000000000

/-- Takes digits as long as the number fits, and counts them. -/
def collect : Nat → Nat → List Char → Nat × Nat
  | n, taken, c :: rest =>
    if 10 * n + digitValue c < unsignedLimit then collect (10 * n + digitValue c) (taken + 1) rest
    else (n, taken)
  | n, taken, [] => (n, taken)

def topPower : Nat := 308

def powerOfTen (n : Nat) : Binary64 := .ofRatio false (tenTo n) 1

def scaleDown (x : Binary64) (n : Nat) : Binary64 :=
  if n ≤ topPower then x.div (powerOfTen n)
  else if x.isZero then x
  else scaleDown (x.div (powerOfTen topPower)) (n - topPower)
termination_by n
decreasing_by simp only [topPower] at *; omega

def scale (significand : Nat) (exponent : Int) : Option Binary64 :=
  let x := Binary64.ofRatio false significand 1
  if exponent < 0 then some (scaleDown x (-exponent).toNat)
  else if exponent ≤ topPower then
    let y := x.mul (powerOfTen exponent.toNat)
    if y.isFinite then some y else none
  else if x.isZero then some x
  else none

/-- An exponent of more than 31 bits stands for infinity or for zero. -/
def scaleBy (significand : Nat) (shift : Int) (negative : Bool) (power : Nat) : Option Binary64 :=
  if power < 0x80000000 then scale significand (if negative then shift - power else shift + power)
  else if significand ≠ 0 && !negative then none
  else some .zero

/-- A number without sign that has a fraction, an exponent or too many digits. -/
def floating (whole fraction : List Char) (negative : Bool) (power : Nat) : Option Binary64 :=
  let (n, taken) := collect 0 0 whole
  let (m, places) := collect n 0 fraction
  scaleBy m ((whole.length - taken : Nat) - places) negative power

def integer (negative : Bool) (n : Nat) : Number :=
  if !negative then .unsigned (UInt64.ofNat n)
  else if n = 0 || Decimal.maxInteger + 1 < n then .float (.ofRatio true n 1)
  else .negative (Int64.ofInt (-n))

/-- What follows the digits and the fraction: nothing, or `e` and a signed row of digits. -/
def exponent? : List Char → Option (Bool × Nat)
  | [] => some (false, 0)
  | c :: rest =>
    let (negative, digits) := Decimal.splitSign rest
    if (c = 'e' || c = 'E') && !digits.isEmpty && digits.all isAsciiDigit then
      some (negative, Decimal.ofDigits digits)
    else none

def fraction? : List Char → Option (List Char × List Char)
  | '.' :: rest =>
    let digits := rest.takeWhile isAsciiDigit
    if digits.isEmpty then none else some (digits, rest.dropWhile isAsciiDigit)
  | cs => some ([], cs)

/-- Digits without superfluous zeros in front. -/
def isWhole (digits : List Char) : Bool :=
  match digits with
  | [] => false
  | '0' :: rest => rest.isEmpty
  | _ => true

def signed (negative : Bool) (x : Binary64) : Number := .float (if negative then x.neg else x)

def Number.read? (cs : List Char) : Option Number := do
  let (below, cs) := match cs with
    | '-' :: rest => (true, rest)
    | _ => (false, cs)
  let whole := cs.takeWhile isAsciiDigit
  let rest := cs.dropWhile isAsciiDigit
  if !isWhole whole then none
  else if rest.isEmpty && Decimal.ofDigits whole < unsignedLimit then
    return integer below (Decimal.ofDigits whole)
  else
    let (fraction, tail) ← fraction? rest
    let (down, power) ← exponent? tail
    return signed below (← floating whole fraction down power)

end Conformance.Json
