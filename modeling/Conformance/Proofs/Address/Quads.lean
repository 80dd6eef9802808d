import Conformance.Address.V4
import Conformance.Proofs.Decimal.Digits
import Mathlib.Data.List.Basic

/-! # Addresses of version 4 as texts

Four octets are written in decimal digits between points. No octet has zeros in front, so every
address has one text, and only this text denotes it.
-/

namespace Conformance.Address.V4

open Decimal (Row)

/-- The decimal digits of an octet, without superfluous zeros in front. -/
structure Octet (cs : List Char) (n : UInt8) : Prop where
  row : Row cs n.toNat
  leading : cs.head? = some '0' → cs = ['0']

inductive Denotes : List Char → V4 → Prop
  | quad {as bs cs ds a b c d} : Octet as a → Octet bs b → Octet cs c → Octet ds d →
      Denotes (as ++ '.' :: bs ++ '.' :: cs ++ '.' :: ds) ⟨a, b, c, d⟩

section Octets

variable {cs : List Char} {n : UInt8}

theorem octet_octetChars (n : UInt8) : Octet (octetChars n) n := by
  refine ⟨Decimal.row_toDigits _, fun hhead => ?_⟩
  by_cases hn : n.toNat = 0
  · rw [octetChars, hn]
    rfl
  · exact absurd hhead (Decimal.head_toDigits hn)

theorem octet_iff : Octet cs n ↔ cs = octetChars n := by
  constructor
  · intro h
    exact h.row.eq_toDigits h.leading
  · rintro rfl
    exact octet_octetChars n

theorem length_octetChars (n : UInt8) : (octetChars n).length ≤ 3 := by
  have hlt : n.toNat < 256 := n.toNat_lt
  exact (Nat.length_toDigits_le_iff (by omega) (by omega)).mpr (by omega)

theorem octet?_octetChars (n : UInt8) : octet? (octetChars n) = some n := by
  have h := octet_octetChars n
  have hlt : n.toNat < 256 := n.toNat_lt
  have hall : (octetChars n).all Decimal.isAsciiDigit = true := List.all_eq_true.mpr h.row.digits
  have hlength := length_octetChars n
  unfold octet?
  split
  · next hnil => exact absurd hnil h.row.nonempty
  · next c rest hzero =>
    have hone := h.leading (by rw [hzero]; rfl)
    rw [hzero] at hone
    cases hone
  · simp [hall, hlength, h.row.value, hlt]

/-- The reader of octets takes what is written for them and nothing else. -/
theorem octet?_eq_some_iff : octet? cs = some n ↔ Octet cs n := by
  constructor
  · intro h
    unfold octet? at h
    split at h
    · cases h
    · cases h
    · next hnil hzero =>
      split at h
      · next hcond =>
        simp only [Bool.and_eq_true, List.all_eq_true, decide_eq_true_eq] at hcond
        obtain ⟨⟨hdigits, -⟩, hlt⟩ := hcond
        cases h
        refine ⟨⟨hnil, hdigits, ?_⟩, fun hhead => ?_⟩
        · exact (UInt8.toNat_ofNat_of_lt' hlt).symm
        · obtain ⟨rest, rfl⟩ := List.head?_eq_some_iff.mp hhead
          cases rest with
          | nil => rfl
          | cons c rest => exact absurd rfl (hzero c rest)
      · cases h
  · intro h
    rw [octet_iff.mp h]
    exact octet?_octetChars n

theorem not_mem_octetChars {c : Char} (hc : Decimal.isAsciiDigit c = false) (n : UInt8) :
    c ∉ octetChars n := by
  intro h
  exact Bool.eq_false_iff.mp hc ((octet_octetChars n).row.digits c h)

end Octets

section Quads

variable {cs : List Char} {x : V4}

theorem denotes_iff : Denotes cs x ↔ cs = x.chars := by
  constructor
  · rintro ⟨ha, hb, hc, hd⟩
    rw [octet_iff.mp ha, octet_iff.mp hb, octet_iff.mp hc, octet_iff.mp hd]
    rfl
  · rintro rfl
    exact .quad (octet_octetChars _) (octet_octetChars _) (octet_octetChars _) (octet_octetChars _)

theorem Denotes.ne_nil (h : Denotes cs x) : cs ≠ [] := by
  rw [denotes_iff.mp h]
  simp [chars]

theorem Denotes.colon_not_mem (h : Denotes cs x) : ':' ∉ cs := by
  have hcolon := not_mem_octetChars (c := ':') rfl
  rw [denotes_iff.mp h]
  simp [chars, hcolon]

theorem splitOn_chars (x : V4) :
    x.chars.splitOn '.' = [octetChars x.a, octetChars x.b, octetChars x.c, octetChars x.d] := by
  have hpoint := not_mem_octetChars (c := '.') rfl
  simp only [chars, List.append_assoc, List.cons_append]
  rw [List.splitOn_append_cons_self_of_not_mem (hpoint _),
    List.splitOn_append_cons_self_of_not_mem (hpoint _),
    List.splitOn_append_cons_self_of_not_mem (hpoint _), List.splitOn_eq_singleton (hpoint _)]

theorem read?_chars (x : V4) : read? x.chars = some x := by
  rw [read?, splitOn_chars]
  simp [octet?_octetChars]

/-- The reader takes the texts of addresses and nothing else. -/
theorem read?_eq_some_iff : read? cs = some x ↔ Denotes cs x := by
  constructor
  · intro h
    unfold read? at h
    split at h
    · next as bs cs' ds hsplit =>
      have hcs : cs = as ++ '.' :: bs ++ '.' :: cs' ++ '.' :: ds := by
        have hjoin : ['.'].intercalate (cs.splitOn '.') = cs := List.intercalate_splitOn '.'
        rw [← hjoin, hsplit]
        simp [List.intercalate_cons_cons]
      simp only [Option.bind_eq_bind, Option.bind_eq_some_iff, octet?_eq_some_iff] at h
      obtain ⟨a, ha, b, hb, c, hc, d, hd, hx⟩ := h
      cases hx
      rw [hcs]
      exact .quad ha hb hc hd
    · cases h
  · intro h
    rw [denotes_iff.mp h]
    exact read?_chars x

end Quads

end Conformance.Address.V4
