import Conformance.Proofs.Decimal.Digits
import Conformance.Proofs.Result
import Conformance.Text.Blank

/-! # Numerals of integers

A numeral is a row of digits behind an optional sign. Its reader gives up at the first digit that
takes the number out of bounds. Further digits never bring a number back, so it reads exactly the
numerals of integers of 64 bits, however many zeros stand in front.
-/

namespace Conformance

namespace Decimal

inductive Numeral : List Char → Int → Prop
  | unsigned {cs n} : Row cs n → Numeral cs n
  | plus {cs n} : Row cs n → Numeral ('+' :: cs) n
  | minus {cs n} : Row cs n → Numeral ('-' :: cs) (-n)

/-! ## Digits within bounds -/

section Bounds

variable {limit m n : Nat} {overflow : IntegerFault} {cs : List Char}

theorem le_foldl_digits (n : Nat) (cs : List Char) :
    n ≤ cs.foldl (fun n c => 10 * n + digitValue c) n := by
  induction cs generalizing n with
  | nil => exact le_rfl
  | cons c rest ih =>
    have hstep : n ≤ 10 * n + digitValue c := by omega
    exact hstep.trans (ih _)

theorem boundedDigits_ok_iff (hn : n ≤ limit) :
    boundedDigits limit overflow n cs = .ok m ↔
      (∀ c ∈ cs, isAsciiDigit c = true) ∧
        cs.foldl (fun n c => 10 * n + digitValue c) n = m ∧ m ≤ limit := by
  induction cs generalizing n with
  | nil =>
    rw [boundedDigits, Except.ok.injEq]
    constructor
    · rintro rfl
      exact ⟨List.forall_mem_nil _, rfl, hn⟩
    · rintro ⟨-, h, -⟩
      exact h
  | cons c rest ih =>
    rw [boundedDigits, List.forall_mem_cons, List.foldl_cons]
    cases hc : isAsciiDigit c with
    | false => simp
    | true =>
      by_cases hover : limit < 10 * n + digitValue c
      · -- What is out of bounds stays so to the end of the row.
        have hrest := le_foldl_digits (10 * n + digitValue c) rest
        simp only [Bool.not_true, Bool.false_eq_true, if_false, if_pos hover, reduceCtorEq,
          false_iff]
        rintro ⟨-, rfl, hm⟩
        omega
      · simp only [Bool.not_true, Bool.false_eq_true, if_false, if_neg hover, true_and]
        exact ih (by omega)

end Bounds

/-! ## Integers of 64 bits -/

section Integers

variable {limit n : Nat} {overflow : IntegerFault} {i : Int64} {z : Int} {cs : List Char}

theorem ofInt_eq_iff : (n ≤ maxInteger ∧ Int64.ofInt n = i) ↔ i.toInt = n := by
  have hle : i.toInt < 2 ^ 63 := Int64.toInt_lt i
  constructor
  · rintro ⟨hn, rfl⟩
    rw [maxInteger] at hn
    exact Int64.toInt_ofInt_of_le (by omega) (by omega)
  · intro h
    refine ⟨?_, ?_⟩
    · rw [maxInteger]
      omega
    · rw [← h, Int64.ofInt_toInt]

theorem ofInt_neg_eq_iff : (n ≤ maxInteger + 1 ∧ Int64.ofInt (-n) = i) ↔ i.toInt = -n := by
  have hle : -2 ^ 63 ≤ i.toInt := Int64.le_toInt i
  constructor
  · rintro ⟨hn, rfl⟩
    rw [maxInteger] at hn
    exact Int64.toInt_ofInt_of_le (by omega) (by omega)
  · intro h
    refine ⟨?_, ?_⟩
    · rw [maxInteger]
      omega
    · rw [← h, Int64.ofInt_toInt]

theorem Row.not_sign {c : Char} (h : Row (c :: cs) n) : c ≠ '+' ∧ c ≠ '-' := by
  have hc := h.digits c List.mem_cons_self
  constructor <;>
    · rintro rfl
      cases hc

theorem numeral_minus_iff : Numeral ('-' :: cs) z ↔ ∃ n, Row cs n ∧ z = -n := by
  constructor
  · intro h
    cases h with
    | unsigned h => exact absurd rfl h.not_sign.2
    | minus h => exact ⟨_, h, rfl⟩
  · rintro ⟨n, h, rfl⟩
    exact .minus h

theorem numeral_plus_iff : Numeral ('+' :: cs) z ↔ ∃ n, Row cs n ∧ z = n := by
  constructor
  · intro h
    cases h with
    | unsigned h => exact absurd rfl h.not_sign.1
    | plus h => exact ⟨_, h, rfl⟩
  · rintro ⟨n, h, rfl⟩
    exact .plus h

theorem numeral_unsigned_iff (plus : ∀ rest, cs ≠ '+' :: rest) (minus : ∀ rest, cs ≠ '-' :: rest) :
    Numeral cs z ↔ ∃ n, Row cs n ∧ z = n := by
  constructor
  · intro h
    cases h with
    | unsigned h => exact ⟨_, h, rfl⟩
    | plus => exact absurd rfl (plus _)
    | minus => exact absurd rfl (minus _)
  · rintro ⟨n, h, rfl⟩
    exact .unsigned h

/-- A row that is read into an integer by way of `f`, which has a value up to the bound only. -/
theorem map_boundedDigits_ok_iff {f : Int → Int64} {g : Nat → Int} (nonempty : cs ≠ [])
    (exact : ∀ n : Nat, (n ≤ limit ∧ f n = i) ↔ i.toInt = g n) :
    Except.map f (boundedDigits limit overflow 0 cs >>= fun n => pure (n : Int)) = .ok i ↔
      ∃ n, Row cs n ∧ i.toInt = g n := by
  simp only [Result.map_ok_iff, Result.bind_ok_iff, boundedDigits_ok_iff (Nat.zero_le limit)]
  constructor
  · rintro ⟨_, ⟨n, ⟨hdigits, hvalue, hlimit⟩, hn⟩, hi⟩
    cases hn
    exact ⟨n, ⟨nonempty, hdigits, hvalue⟩, (exact n).mp ⟨hlimit, hi⟩⟩
  · rintro ⟨n, ⟨-, hdigits, hvalue⟩, hn⟩
    obtain ⟨hlimit, hi⟩ := (exact n).mpr hn
    exact ⟨n, ⟨n, ⟨hdigits, hvalue, hlimit⟩, rfl⟩, hi⟩

/-- The reader takes numerals of integers of 64 bits and nothing else. -/
theorem readInteger_ok_iff : readInteger cs = .ok i ↔ Numeral cs i.toInt := by
  have hempty : ∀ n, ¬ Row [] n := fun n h => h.nonempty rfl
  unfold readInteger
  split
  · rw [numeral_unsigned_iff (by simp) (by simp)]
    simp [hempty]
  · rw [numeral_plus_iff]
    simp [hempty]
  · rw [numeral_minus_iff]
    simp [hempty]
  · next rest hrest =>
    rw [numeral_minus_iff]
    exact map_boundedDigits_ok_iff hrest fun _ => ofInt_neg_eq_iff
  · next rest hrest =>
    rw [numeral_plus_iff]
    exact map_boundedDigits_ok_iff hrest fun _ => ofInt_eq_iff
  · next hnil _ _ hminus hplus =>
    rw [numeral_unsigned_iff hplus hminus]
    exact map_boundedDigits_ok_iff hnil fun _ => ofInt_eq_iff

end Integers

end Decimal

/-! ## Blanks at the ends -/

namespace Text

open Decimal (Numeral Row)

variable {front t back cs : List Char} {n : Nat} {z : Int}

theorem exists_trim (cs : List Char) : ∃ front back, cs = front ++ trim cs ++ back ∧
    (∀ c ∈ front, isBlank c = true) ∧ ∀ c ∈ back, isBlank c = true := by
  have hfront := List.takeWhile_append_dropWhile (p := isBlank) (l := cs)
  have hback := List.takeWhile_append_dropWhile (p := isBlank) (l := (cs.dropWhile isBlank).reverse)
  refine ⟨cs.takeWhile isBlank, ((cs.dropWhile isBlank).reverse.takeWhile isBlank).reverse, ?_,
    fun c => List.mem_takeWhile_imp, fun c hc => List.mem_takeWhile_imp (List.mem_reverse.mp hc)⟩
  rw [List.append_assoc, trim, ← List.reverse_append, hback, List.reverse_reverse, hfront]

theorem trim_surrounded (hfront : ∀ c ∈ front, isBlank c = true)
    (hback : ∀ c ∈ back, isBlank c = true) (ht : ∀ c ∈ t, isBlank c = false) (nonempty : t ≠ []) :
    trim (front ++ t ++ back) = t := by
  have hkept : ∀ {xs : List Char} (ys : List Char), xs ≠ [] → (∀ c ∈ xs, isBlank c = false) →
      (xs ++ ys).dropWhile isBlank = xs ++ ys := by
    intro xs ys hne hxs
    obtain ⟨c, rest, rfl⟩ := List.exists_cons_of_ne_nil hne
    rw [List.cons_append, List.dropWhile_cons_of_neg]
    rw [hxs c List.mem_cons_self]
    exact Bool.false_ne_true
  have hlast : t.reverse.dropWhile isBlank = t.reverse := by
    have h := hkept [] (mt List.reverse_eq_nil_iff.mp nonempty)
      (fun c hc => ht c (List.mem_reverse.mp hc))
    rwa [List.append_nil] at h
  rw [trim, List.append_assoc, List.dropWhile_append_of_pos hfront, hkept back nonempty ht,
    List.reverse_append,
    List.dropWhile_append_of_pos (fun c hc => hback c (List.mem_reverse.mp hc)), hlast,
    List.reverse_reverse]

theorem isBlank_of_digit {c : Char} (h : Decimal.isAsciiDigit c = true) : isBlank c = false := by
  obtain ⟨hlow, hhigh⟩ := Bool.and_eq_true_iff.mp h
  have hlow : 48 ≤ c.toNat := of_decide_eq_true hlow
  have hhigh : c.toNat ≤ 57 := of_decide_eq_true hhigh
  simp only [isBlank, CharClass.mem, blank, CharClass.search]
  grind

theorem isBlank_of_row (h : Row cs n) : ∀ c ∈ cs, isBlank c = false := fun c hc =>
  isBlank_of_digit (h.digits c hc)

theorem isBlank_of_numeral (h : Numeral cs z) : ∀ c ∈ cs, isBlank c = false := by
  cases h with
  | unsigned h => exact isBlank_of_row h
  | plus h => exact List.forall_mem_cons.mpr ⟨rfl, isBlank_of_row h⟩
  | minus h => exact List.forall_mem_cons.mpr ⟨rfl, isBlank_of_row h⟩

theorem numeral_ne_nil (h : Numeral cs z) : cs ≠ [] := by
  cases h with
  | unsigned h => exact h.nonempty
  | plus | minus => exact List.cons_ne_nil _ _

/-- A numeral is left after trimming just if nothing but blanks stands around one. -/
theorem numeral_trim_iff : Numeral (trim cs) z ↔
    ∃ front numeral back, cs = front ++ numeral ++ back ∧ (∀ c ∈ front, isBlank c = true) ∧
      (∀ c ∈ back, isBlank c = true) ∧ Numeral numeral z := by
  constructor
  · intro h
    obtain ⟨front, back, hcs, hfront, hback⟩ := exists_trim cs
    exact ⟨front, trim cs, back, hcs, hfront, hback, h⟩
  · rintro ⟨front, numeral, back, rfl, hfront, hback, h⟩
    rwa [trim_surrounded hfront hback (isBlank_of_numeral h) (numeral_ne_nil h)]

end Text

end Conformance
