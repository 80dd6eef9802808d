import Conformance.Binary64.Rounding
import Conformance.Decimal.Power

/-! # Reading integers, decimal numbers and truth values -/

namespace Conformance.Decimal

def isAsciiDigit (c : Char) : Bool := '0' ≤ c && c ≤ '9'

def digitValue (c : Char) : Nat := c.toNat - '0'.toNat

def ofDigits (cs : List Char) : Nat := cs.foldl (fun n c => 10 * n + digitValue c) 0

/-! ## Integers -/

inductive IntegerFault where
  | empty
  | invalidDigit
  | tooLarge
  | tooSmall
deriving DecidableEq

def IntegerFault.message : IntegerFault → String
  | .empty => "cannot parse integer from empty string"
  | .invalidDigit => "invalid digit found in string"
  | .tooLarge => "number too large to fit in target type"
  | .tooSmall => "number too small to fit in target type"

/-- Digits onto `n`, none of them taking it above `limit`. The first fault from the left counts. -/
def boundedDigits (limit : Nat) (overflow : IntegerFault) :
    Nat → List Char → Except IntegerFault Nat
  | n, [] => .ok n
  | n, c :: rest =>
    if !isAsciiDigit c then .error .invalidDigit
    else if limit < 10 * n + digitValue c then .error overflow
    else boundedDigits limit overflow (10 * n + digitValue c) rest

/-- The greatest integer of 64 bits; the least one is one further from zero. -/
def maxInteger : Nat := 0x7FFFFFFFFFFFFFFF

def readInteger : List Char → Except IntegerFault Int64
  | [] => .error .empty
  | ['+'] => .error .invalidDigit
  | ['-'] => .error .invalidDigit
  | '-' :: rest => (boundedDigits (maxInteger + 1) .tooSmall 0 rest).map fun n => Int64.ofInt (-n)
  | '+' :: rest => (boundedDigits maxInteger .tooLarge 0 rest).map fun n => Int64.ofInt n
  | cs => (boundedDigits maxInteger .tooLarge 0 cs).map fun n => Int64.ofInt n

/-! ## Numbers -/

inductive NumberFault where
  | empty
  | invalid
deriving DecidableEq

def NumberFault.message : NumberFault → String
  | .empty => "cannot parse float from empty string"
  | .invalid => "invalid float literal"

/-- `coefficient * 10 ^ exponent` rounded once. Outside these bounds every coefficient rounds to
infinity or to zero, and the power need not be computed. -/
def nearest (negative : Bool) (coefficient : Nat) (exponent : Int) : Binary64 :=
  let leading := (Nat.toDigits 10 coefficient).length + exponent
  if coefficient = 0 || leading < -330 then .ofMagnitude negative 0
  else if 310 < leading then .ofMagnitude negative Binary64.infinityMagnitude
  else .ofRatio negative (coefficient * tenTo exponent.toNat) (tenTo (-exponent).toNat)

def splitSign : List Char → Bool × List Char
  | '-' :: rest => (true, rest)
  | '+' :: rest => (false, rest)
  | cs => (false, cs)

/-- What follows the digits of a number: nothing, or `e` and a signed row of digits. -/
def readExponent : List Char → Option Int
  | [] => some 0
  | c :: rest =>
    let (negative, digits) := splitSign rest
    if c.toLower = 'e' && !digits.isEmpty && digits.all isAsciiDigit then
      some (if negative then -(ofDigits digits : Int) else ofDigits digits)
    else none

/-- Digits with an optional point among them or at either end, then an optional exponent. -/
def readUnsigned (negative : Bool) (cs : List Char) : Option Binary64 :=
  let whole := cs.takeWhile isAsciiDigit
  let tail := cs.dropWhile isAsciiDigit
  let afterPoint := match tail with
    | '.' :: rest => rest
    | _ => []
  let fraction := afterPoint.takeWhile isAsciiDigit
  let power := match tail with
    | '.' :: rest => rest.dropWhile isAsciiDigit
    | _ => tail
  if whole.isEmpty && fraction.isEmpty then none
  else
    (readExponent power).map fun e =>
      nearest negative (ofDigits (whole ++ fraction)) (e - fraction.length)

/-- Names of the values without digits, in any mix of cases. -/
def readNamed (negative : Bool) (cs : List Char) : Option Binary64 :=
  let name := String.ofList (cs.map Char.toLower)
  if name = "inf" || name = "infinity" then
    some (.ofMagnitude negative Binary64.infinityMagnitude)
  else if name = "nan" then some (.ofMagnitude negative Binary64.nan.magnitude)
  else none

def readNumber (cs : List Char) : Except NumberFault Binary64 :=
  if cs.isEmpty then .error .empty
  else
    let (negative, rest) := splitSign cs
    match readNamed negative rest <|> readUnsigned negative rest with
    | some x => .ok x
    | none => .error .invalid

end Conformance.Decimal
