import Conformance.Decimal.Reader

/-! # Internet addresses of version 4 -/

namespace Conformance.Address

structure V4 where
  a : UInt8
  b : UInt8
  c : UInt8
  d : UInt8
deriving DecidableEq

namespace V4

/-- Decimal digits up to 255, without superfluous zeros in front. -/
def octet? (cs : List Char) : Option UInt8 :=
  match cs with
  | [] => none
  | '0' :: _ :: _ => none
  | _ =>
    if cs.all Decimal.isAsciiDigit && cs.length ≤ 3 && Decimal.ofDigits cs < 256 then
      some (UInt8.ofNat (Decimal.ofDigits cs))
    else none

def read? (cs : List Char) : Option V4 :=
  match cs.splitOn '.' with
  | [a, b, c, d] => do return ⟨← octet? a, ← octet? b, ← octet? c, ← octet? d⟩
  | _ => none

def octetChars (n : UInt8) : List Char := Nat.toDigits 10 n.toNat

def chars (x : V4) : List Char :=
  octetChars x.a ++ '.' :: octetChars x.b ++ '.' :: octetChars x.c ++ '.' :: octetChars x.d

end V4

end Conformance.Address
