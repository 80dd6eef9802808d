import Conformance.Decimal.Reader
import Conformance.Proofs.Text.Runs
import Mathlib.Data.List.Basic

/-! # Rows of decimal digits

A natural number has one row of digits without superfluous zeros in front. It is the row that is
written for the number, and reading it gives the number back.
-/

namespace Conformance.Decimal

structure Row (cs : List Char) (n : Nat) : Prop where
  nonempty : cs ≠ []
  digits : ∀ c ∈ cs, isAsciiDigit c = true
  value : ofDigits cs = n

section Written

variable {n : Nat} {c : Char}

theorem isAsciiDigit_of_mem (h : c ∈ Nat.toDigits 10 n) : isAsciiDigit c = true := by
  have hdigit : isAsciiDigit c = c.isDigit := by
    rw [isAsciiDigit, Char.isDigit]
    rfl
  rw [hdigit]
  exact Nat.isDigit_of_mem_toDigits (by omega) (by omega) h

theorem ofDigits_toDigits (n : Nat) : ofDigits (Nat.toDigits 10 n) = n :=
  Nat.ofDigitChars_ten_toDigits

/-- Only zero begins with a zero. -/
theorem head_toDigits (h : n ≠ 0) : (Nat.toDigits 10 n).head? ≠ some '0' := by
  induction n using Nat.strong_induction_on with
  | h n ih =>
    rw [Nat.toDigits_eq_if (by omega)]
    by_cases hn : n < 10
    · rw [if_pos hn]
      simpa using h
    · rw [if_neg hn, List.head?_append_of_ne_nil _ Nat.toDigits_ne_nil]
      exact ih (n / 10) (by omega) (by omega)

theorem row_toDigits (n : Nat) : Row (Nat.toDigits 10 n) n :=
  ⟨Nat.toDigits_ne_nil, fun _ => isAsciiDigit_of_mem, ofDigits_toDigits n⟩

end Written

/-! ## Digits as they are read -/

section Read

variable {c : Char} {cs : List Char}

theorem digitValue_lt (h : isAsciiDigit c = true) : digitValue c < 10 := by
  have hhigh : c.toNat ≤ 57 := of_decide_eq_true (Bool.and_eq_true_iff.mp h).2
  have hzero : '0'.toNat = 48 := rfl
  rw [digitValue, hzero]
  omega

theorem digitChar_digitValue (h : isAsciiDigit c = true) : (digitValue c).digitChar = c := by
  have hlow : 48 ≤ c.toNat := of_decide_eq_true (Bool.and_eq_true_iff.mp h).1
  have hzero : '0'.toNat = 48 := rfl
  apply Char.toNat_inj.mp
  rw [Nat.toNat_digitChar_of_lt_ten (digitValue_lt h), digitValue, hzero]
  omega

theorem digitValue_pos (h : isAsciiDigit c = true) (hc : c ≠ '0') : 0 < digitValue c := by
  by_contra hpos
  have hzero : digitValue c = 0 := by omega
  have hchar := digitChar_digitValue h
  rw [hzero] at hchar
  exact hc hchar.symm

theorem ofDigits_eq (cs : List Char) :
    ofDigits cs = (cs.map digitValue).foldl (fun n d => 10 * n + d) 0 := by
  rw [ofDigits, List.foldl_map]

/-- Digits that do not begin with a superfluous zero are those that are written for their number. -/
theorem Row.eq_toDigits {n : Nat} (h : Row cs n) (leading : cs.head? = some '0' → cs = ['0']) :
    cs = Nat.toDigits 10 n := by
  obtain ⟨c, rest, rfl⟩ := List.exists_cons_of_ne_nil h.nonempty
  obtain ⟨hc, hrest⟩ := List.forall_mem_cons.mp h.digits
  rw [← h.value]
  by_cases hzero : c = '0'
  · subst hzero
    rw [leading rfl]
    rfl
  · have hvalues : ∀ d ∈ rest.map digitValue, d < 10 :=
      List.forall_mem_map.mpr fun d hd => digitValue_lt (hrest d hd)
    have hchars : (rest.map digitValue).map Nat.digitChar = rest := by
      rw [List.map_map]
      exact (List.map_congr_left fun d hd => digitChar_digitValue (hrest d hd)).trans
        (List.map_id rest)
    have hpos := digitValue_pos hc hzero
    have hstart : 10 * 0 + digitValue c = digitValue c := by omega
    rw [ofDigits_eq, List.map_cons, List.foldl_cons, hstart,
      Text.toDigits_foldl (by omega) hpos hvalues, hchars,
      Nat.toDigits_of_lt_base (digitValue_lt hc), digitChar_digitValue hc]
    rfl

end Read

end Conformance.Decimal
