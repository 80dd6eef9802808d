import Mathlib.Data.List.TakeWhile
import Mathlib.Data.Nat.Init

/-! # Texts that come apart

Where a run of characters of one class ends with the text or before a character of another class,
the run and what follows it can be told from the text. A row of digits is such a run, and it tells
the number.
-/

namespace Conformance.Text

section Runs

variable {α : Type} {p : α → Bool} {xs ys r s : List α}

/-- The text is over, or a character outside of the class comes next. -/
def Stops (p : α → Bool) (r : List α) : Prop := ∀ c ∈ r.head?, p c = false

theorem stops_nil : Stops p [] := by
  intro c hc
  cases hc

theorem stops_cons {c : α} (h : p c = false) : Stops p (c :: r) := by
  intro d hd
  cases hd
  exact h

theorem takeWhile_run (hx : ∀ c ∈ xs, p c = true) (hr : Stops p r) :
    (xs ++ r).takeWhile p = xs := by
  have htail : r.takeWhile p = [] := by
    cases r with
    | nil => rfl
    | cons c rest =>
      have hc : p c = false := hr c rfl
      rw [List.takeWhile_cons, hc]
      rfl
  rw [List.takeWhile_append_of_pos hx, htail, List.append_nil]

theorem run_append_inj (hx : ∀ c ∈ xs, p c = true) (hy : ∀ c ∈ ys, p c = true) (hr : Stops p r)
    (hs : Stops p s) (h : xs ++ r = ys ++ s) : xs = ys ∧ r = s := by
  have hrun : xs = ys := by
    rw [← takeWhile_run hx hr, h, takeWhile_run hy hs]
  subst hrun
  exact ⟨rfl, List.append_cancel_left h⟩

end Runs

/-! ## Rows of digits -/

section Digits

variable {b m n : Nat}

theorem exists_digits (hb : 1 < b) (n : Nat) : ∃ ds : List Nat,
    (∀ d ∈ ds, d < b) ∧ Nat.toDigits b n = ds.map Nat.digitChar ∧
      ds.foldl (fun n d => b * n + d) 0 = n := by
  induction n using Nat.strong_induction_on with
  | h n ih =>
    by_cases hn : n < b
    · refine ⟨[n], List.forall_mem_singleton.mpr hn, Nat.toDigits_of_lt_base hn, ?_⟩
      rw [List.foldl_cons, Nat.mul_zero, Nat.zero_add]
      rfl
    · obtain ⟨ds, hds, hchars, hvalue⟩ := ih (n / b) (Nat.div_lt_self (by omega) hb)
      refine ⟨ds ++ [n % b], ?_, ?_, ?_⟩
      · exact List.forall_mem_append.mpr
          ⟨hds, List.forall_mem_singleton.mpr (Nat.mod_lt n (by omega))⟩
      · rw [Nat.toDigits_of_base_le hb (by omega), hchars, List.map_append]
        rfl
      · rw [List.foldl_append, hvalue]
        exact Nat.div_add_mod n b

theorem exists_of_mem_toDigits (hb : 1 < b) {c : Char} (h : c ∈ Nat.toDigits b n) :
    ∃ d < b, c = Nat.digitChar d := by
  obtain ⟨ds, hds, hchars, -⟩ := exists_digits hb n
  rw [hchars] at h
  obtain ⟨d, hd, rfl⟩ := List.mem_map.mp h
  exact ⟨d, hds d hd, rfl⟩

theorem digitChar_injective : ∀ i < 16, ∀ j < 16, Nat.digitChar i = Nat.digitChar j → i = j := by
  decide

/-- The library reads digits back up to base ten only. -/
theorem toDigits_injective (hb : 1 < b) (hle : b ≤ 16) (h : Nat.toDigits b m = Nat.toDigits b n) :
    m = n := by
  induction m using Nat.strong_induction_on generalizing n with
  | h m ih =>
    by_cases hm : m < b
    · rw [Nat.toDigits_of_lt_base hm] at h
      by_cases hn : n < b
      · rw [Nat.toDigits_of_lt_base hn] at h
        exact digitChar_injective m (by omega) n (by omega) (List.singleton_inj.mp h)
      · rw [Nat.toDigits_of_base_le hb (by omega), ← List.nil_append [m.digitChar]] at h
        exact absurd (List.append_inj' h rfl).1.symm Nat.toDigits_ne_nil
    · rw [Nat.toDigits_of_base_le hb (by omega)] at h
      by_cases hn : n < b
      · rw [Nat.toDigits_of_lt_base hn, ← List.nil_append [n.digitChar]] at h
        exact absurd (List.append_inj' h rfl).1 Nat.toDigits_ne_nil
      · rw [Nat.toDigits_of_base_le hb (by omega : b ≤ n)] at h
        obtain ⟨hfront, hlast⟩ := List.append_inj' h rfl
        have hdiv : m / b = n / b := ih (m / b) (Nat.div_lt_self (by omega) hb) hfront
        have hm' : m % b < b := Nat.mod_lt m (by omega)
        have hn' : n % b < b := Nat.mod_lt n (by omega)
        have hmod : m % b = n % b :=
          digitChar_injective _ (by omega) _ (by omega) (List.singleton_inj.mp hlast)
        rw [← Nat.div_add_mod m b, hdiv, hmod, Nat.div_add_mod]

/-- Further digits stand behind the digits of a number as soon as it is not zero. -/
theorem toDigits_foldl (hb : 1 < b) (hn : 0 < n) {ds : List Nat} (h : ∀ d ∈ ds, d < b) :
    Nat.toDigits b (ds.foldl (fun n d => b * n + d) n) =
      Nat.toDigits b n ++ ds.map Nat.digitChar := by
  induction ds generalizing n with
  | nil => exact (List.append_nil _).symm
  | cons d rest ih =>
    obtain ⟨hd, hrest⟩ := List.forall_mem_cons.mp h
    have hpos : 0 < b * n + d := Nat.add_pos_left (Nat.mul_pos (by omega) hn) d
    rw [List.foldl_cons, ih hpos hrest, ← Nat.toDigits_append_toDigits hb hn hd,
      Nat.toDigits_of_lt_base hd, List.append_assoc, List.map_cons]
    rfl

theorem decimal_append_inj {r s : List Char} (hr : Stops Char.isDigit r)
    (hs : Stops Char.isDigit s) (h : Nat.toDigits 10 m ++ r = Nat.toDigits 10 n ++ s) :
    m = n ∧ r = s := by
  have hdigit : ∀ k, ∀ c ∈ Nat.toDigits 10 k, c.isDigit = true := fun k c =>
    Nat.isDigit_of_mem_toDigits (by decide) (by decide)
  obtain ⟨hdigits, hrest⟩ := run_append_inj (hdigit m) (hdigit n) hr hs h
  exact ⟨toDigits_injective (by decide) (by decide) hdigits, hrest⟩

end Digits

end Conformance.Text
