/-! # Powers of ten -/

namespace Conformance.Decimal

def tenTo (n : Nat) : Nat := Nat.pow 10 n

end Conformance.Decimal
