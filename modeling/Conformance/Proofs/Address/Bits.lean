import Conformance.Address.V6
import Mathlib.Data.Nat.Digits.Lemmas

/-! # The bits of an address

An address is a number of 32 or of 128 bits, and the words that it is made of are the digits of this
number. Addresses are the same exactly if their bits are.
-/

namespace Conformance.Address

/-- Words that stand for the digits of base `b`. -/
structure Digital {α : Type} (toNat : α → Nat) (ofNat : Nat → α) (b : Nat) : Prop where
  one_lt : 1 < b
  lt : ∀ u, toNat u < b
  ofNat_toNat : ∀ u, ofNat (toNat u) = u
  toNat_ofNat : ∀ n < b, toNat (ofNat n) = n

theorem digital_octet : Digital UInt8.toNat UInt8.ofNat 256 where
  one_lt := by omega
  lt := UInt8.toNat_lt
  ofNat_toNat _ := UInt8.ofNat_toNat
  toNat_ofNat _ h := UInt8.toNat_ofNat_of_lt' h

theorem digital_group : Digital UInt16.toNat UInt16.ofNat 65536 where
  one_lt := by omega
  lt := UInt16.toNat_lt
  ofNat_toNat _ := UInt16.ofNat_toNat
  toNat_ofNat _ h := UInt16.toNat_ofNat_of_lt' h

/-- The number that words denote, the most significant of them first. -/
def ofWords {α : Type} (toNat : α → Nat) (b : Nat) (us : List α) : Nat :=
  Nat.ofDigits b (us.reverse.map toNat)

namespace Digital

variable {α : Type} {toNat : α → Nat} {ofNat : Nat → α} {b k w : Nat} {us vs : List α}

theorem forall_lt (h : Digital toNat ofNat b) (us : List α) : ∀ d ∈ us.map toNat, d < b :=
  List.forall_mem_map.mpr fun u _ => h.lt u

theorem map_ofNat (h : Digital toNat ofNat b) (us : List α) : (us.map toNat).map ofNat = us := by
  rw [List.map_map]
  exact (List.map_congr_left fun u _ => h.ofNat_toNat u).trans (List.map_id us)

theorem map_toNat (h : Digital toNat ofNat b) {ds : List Nat} (hds : ∀ d ∈ ds, d < b) :
    (ds.map ofNat).map toNat = ds := by
  rw [List.map_map]
  exact (List.map_congr_left fun d hd => h.toNat_ofNat d (hds d hd)).trans (List.map_id ds)

theorem ofWords_lt (h : Digital toNat ofNat b) (hus : us.length = k) :
    ofWords toNat b us < b ^ k := by
  have hlt := Nat.ofDigits_lt_base_pow_length h.one_lt (h.forall_lt us.reverse)
  rwa [List.length_map, List.length_reverse, hus] at hlt

theorem ofWords_inj (h : Digital toNat ofNat b) (hlength : us.length = vs.length)
    (heq : ofWords toNat b us = ofWords toNat b vs) : us = vs := by
  have hdigits : us.reverse.map toNat = vs.reverse.map toNat :=
    Nat.ofDigits_inj_of_len_eq h.one_lt (by simp [hlength]) (h.forall_lt _) (h.forall_lt _) heq
  apply List.reverse_injective
  rw [← h.map_ofNat us.reverse, hdigits, h.map_ofNat]

theorem exists_ofWords (h : Digital toNat ofNat b) {n : Nat} (hn : n < b ^ k) :
    ∃ us : List α, us.length = k ∧ ofWords toNat b us = n := by
  refine ⟨((Nat.digitsAppend b k n).map ofNat).reverse, ?_, ?_⟩
  · rw [List.length_reverse, List.length_map, Nat.length_digitsAppend h.one_lt k hn]
  · rw [ofWords, List.reverse_reverse, h.map_toNat fun d => Nat.lt_of_mem_digitsAppend h.one_lt k d,
      Nat.digitsAppend, Nat.ofDigits_append_replicate_zero, Nat.ofDigits_digits]

/-- So many words that they fill a number of `w` bits are told by this number. -/
theorem bits_inj (h : Digital toNat ofNat b) (hfill : b ^ k = 2 ^ w) (hus : us.length = k)
    (hvs : vs.length = k)
    (heq : BitVec.ofNat w (ofWords toNat b us) = BitVec.ofNat w (ofWords toNat b vs)) :
    us = vs := by
  have hnumbers := congrArg BitVec.toNat heq
  rw [BitVec.toNat_ofNat, BitVec.toNat_ofNat, ← hfill, Nat.mod_eq_of_lt (h.ofWords_lt hus),
    Nat.mod_eq_of_lt (h.ofWords_lt hvs)] at hnumbers
  exact h.ofWords_inj (hus.trans hvs.symm) hnumbers

theorem exists_bits (h : Digital toNat ofNat b) (hfill : b ^ k = 2 ^ w) (v : BitVec w) :
    ∃ us : List α, us.length = k ∧ BitVec.ofNat w (ofWords toNat b us) = v := by
  obtain ⟨us, hlength, hus⟩ := h.exists_ofWords (hfill ▸ v.isLt)
  exact ⟨us, hlength, by rw [hus, BitVec.ofNat_toNat, BitVec.setWidth_eq]⟩

end Digital

/-! ## Both versions -/

def V4.words (x : V4) : List UInt8 := [x.a, x.b, x.c, x.d]

def V4.bits (x : V4) : BitVec 32 := BitVec.ofNat 32 (ofWords UInt8.toNat 256 x.words)

def V6.bits (x : V6) : BitVec 128 := BitVec.ofNat 128 (ofWords UInt16.toNat 65536 x.groups)

theorem V4.bits_bijective : Function.Bijective V4.bits := by
  constructor
  · intro x y h
    have hwords : x.words = y.words := digital_octet.bits_inj (k := 4) (by norm_num) rfl rfl h
    cases x
    cases y
    cases hwords
    rfl
  · intro v
    obtain ⟨us, hlength, hbits⟩ := digital_octet.exists_bits (k := 4) (by norm_num) v
    obtain ⟨a, b, c, d, rfl⟩ := List.length_eq_four.mp hlength
    exact ⟨⟨a, b, c, d⟩, hbits⟩

theorem V6.bits_bijective : Function.Bijective V6.bits := by
  constructor
  · intro x y h
    have hgroups : x.groups = y.groups :=
      digital_group.bits_inj (by norm_num) x.length_groups y.length_groups h
    cases x
    cases y
    cases hgroups
    rfl
  · intro v
    obtain ⟨us, hlength, hbits⟩ := digital_group.exists_bits (k := 8) (by norm_num) v
    exact ⟨⟨us, hlength⟩, hbits⟩

end Conformance.Address
