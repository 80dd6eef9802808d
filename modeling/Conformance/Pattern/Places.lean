/-! # Sets of places in a text -/

namespace Conformance.Pattern

/-- A set of places: place `i`, which stands behind `i` characters, is in it when bit `i` is one. -/
structure Places where
  bits : Nat
deriving DecidableEq

namespace Places

def mem (p : Places) (i : Nat) : Bool := p.bits.testBit i

def none : Places := ⟨0⟩

def isEmpty (p : Places) : Bool := p.bits == 0

def single (i : Nat) : Places := ⟨1 <<< i⟩

def below (n : Nat) : Places := ⟨(1 <<< n) - 1⟩

def union (p q : Places) : Places := ⟨p.bits ||| q.bits⟩

def inter (p q : Places) : Places := ⟨p.bits &&& q.bits⟩

def without (p q : Places) : Places := ⟨p.bits ^^^ (p.bits &&& q.bits)⟩

def next (p : Places) : Places := ⟨p.bits <<< 1⟩

/-- The places right before the characters that pass a test. -/
def before (test : Char → Bool) (text : List Char) : Places :=
  ⟨text.foldr (fun c bits => (bits <<< 1) ||| (test c).toNat) 0⟩

@[simp] theorem mem_none (i : Nat) : none.mem i = false := by
  simp [mem, none]

@[simp] theorem mem_union (p q : Places) (i : Nat) : (p.union q).mem i = (p.mem i || q.mem i) := by
  simp [mem, union]

@[simp] theorem mem_inter (p q : Places) (i : Nat) : (p.inter q).mem i = (p.mem i && q.mem i) := by
  simp [mem, inter]

@[simp] theorem mem_without (p q : Places) (i : Nat) :
    (p.without q).mem i = (p.mem i && !q.mem i) := by
  cases h : p.bits.testBit i <;> simp [mem, without, h]

@[simp] theorem mem_next_succ (p : Places) (i : Nat) : p.next.mem (i + 1) = p.mem i := by
  simp [mem, next, Nat.testBit_shiftLeft]

@[simp] theorem mem_next_zero (p : Places) : p.next.mem 0 = false := by
  simp [mem, next]

end Places

end Conformance.Pattern
