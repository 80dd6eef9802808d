import Conformance.Proofs.Text.Runs
import Conformance.Text.Quoted

/-! # What text between quotes tells

Of the escapes only this is used: quotes and backslashes are never written as they are, and any
other character stands for itself or is an escape of its own. Which characters count as printable
does not matter.
-/

namespace Conformance.Text

def letters : List (Char × Char) :=
  [('"', '"'), ('\\', '\\'), ('n', '\n'), ('t', '\t'), ('r', '\r'), ('0', '\x00')]

/-- What may be written for a character between quotes. -/
inductive Spells : Char → List Char → Prop
  | itself {c} : c ≠ '"' → c ≠ '\\' → Spells c [c]
  | letter {c l} : letters.lookup l = some c → Spells c ['\\', l]
  | code (c) : Spells c ('\\' :: 'u' :: '\x7b' :: (hexDigits c.toNat ++ ['\x7d']))

theorem spells_escape (c : Char) : Spells c (escape c) := by
  by_cases hquote : c = '"'
  · subst hquote
    exact .letter rfl
  by_cases hslash : c = '\\'
  · subst hslash
    exact .letter rfl
  rw [escape, if_neg hquote, if_neg hslash]
  by_cases hline : c = '\n'
  · subst hline
    exact .letter rfl
  by_cases htab : c = '\t'
  · subst htab
    exact .letter rfl
  by_cases hreturn : c = '\r'
  · subst hreturn
    exact .letter rfl
  by_cases hzero : c = '\x00'
  · subst hzero
    exact .letter rfl
  rw [if_neg hline, if_neg htab, if_neg hreturn, if_neg hzero]
  by_cases hprint : isPrintable c = true
  · rw [if_pos hprint]
    exact .itself hquote hslash
  · rw [if_neg hprint]
    exact .code c

namespace Spells

variable {c d : Char} {cs ds r s : List Char}

/-- No spelling begins with a quote, so the closing quote is told from what stands before it. -/
theorem append_ne_quote (h : Spells c cs) : cs ++ r ≠ '"' :: s := by
  intro heq
  cases h with
  | itself hquote _ => exact hquote (List.head_eq_of_cons_eq heq)
  | letter _ => exact absurd (List.head_eq_of_cons_eq heq) (by decide)
  | code => exact absurd (List.head_eq_of_cons_eq heq) (by decide)

theorem code_append_inj
    (h : hexDigits c.toNat ++ '\x7d' :: r = hexDigits d.toNat ++ '\x7d' :: s) :
    c = d ∧ r = s := by
  have hnot : ∀ i < 16, Nat.digitChar i ≠ '\x7d' := by decide
  have hdigit : ∀ n, ∀ x ∈ hexDigits n, (x != '\x7d') = true := by
    intro n x hx
    obtain ⟨i, hi, rfl⟩ := exists_of_mem_toDigits (by decide) hx
    exact bne_iff_ne.mpr (hnot i hi)
  obtain ⟨hdigits, hrest⟩ :=
    run_append_inj (hdigit c.toNat) (hdigit d.toNat) (stops_cons rfl) (stops_cons rfl) h
  exact ⟨Char.toNat_inj.mp (toDigits_injective (by decide) (by decide) hdigits),
    List.tail_eq_of_cons_eq hrest⟩

theorem lookup_u : letters.lookup 'u' = none := rfl

theorem append_inj (hc : Spells c cs) (hd : Spells d ds) (h : cs ++ r = ds ++ s) :
    c = d ∧ r = s := by
  cases hc with
  | itself _ hslash =>
    cases hd with
    | itself _ _ => exact List.cons_eq_cons.mp h
    | letter _ => exact absurd (List.head_eq_of_cons_eq h) hslash
    | code => exact absurd (List.head_eq_of_cons_eq h) hslash
  | letter hl =>
    cases hd with
    | itself _ hslash => exact absurd (List.head_eq_of_cons_eq h).symm hslash
    | letter hm =>
      obtain ⟨hletter, hrest⟩ := List.cons_eq_cons.mp (List.tail_eq_of_cons_eq h)
      rw [hletter, hm] at hl
      exact ⟨(Option.some.inj hl).symm, hrest⟩
    | code =>
      rw [List.head_eq_of_cons_eq (List.tail_eq_of_cons_eq h), lookup_u] at hl
      cases hl
  | code =>
    cases hd with
    | itself _ hslash => exact absurd (List.head_eq_of_cons_eq h).symm hslash
    | letter hm =>
      rw [← List.head_eq_of_cons_eq (List.tail_eq_of_cons_eq h), lookup_u] at hm
      cases hm
    | code =>
      apply code_append_inj
      simpa using h

end Spells

/-! ## Whole texts -/

variable {r s : List Char}

theorem escaped_append_inj {xs ys : List Char}
    (h : xs.flatMap escape ++ '"' :: r = ys.flatMap escape ++ '"' :: s) : xs = ys ∧ r = s := by
  induction xs generalizing ys with
  | nil =>
    cases ys with
    | nil => exact ⟨rfl, List.tail_eq_of_cons_eq h⟩
    | cons d ys =>
      rw [List.flatMap_cons, List.append_assoc] at h
      exact absurd h.symm (spells_escape d).append_ne_quote
  | cons c xs ih =>
    rw [List.flatMap_cons, List.append_assoc] at h
    cases ys with
    | nil => exact absurd h (spells_escape c).append_ne_quote
    | cons d ys =>
      rw [List.flatMap_cons, List.append_assoc] at h
      obtain ⟨rfl, hrest⟩ := (spells_escape c).append_inj (spells_escape d) h
      obtain ⟨rfl, hrs⟩ := ih hrest
      exact ⟨rfl, hrs⟩

/-- Text between quotes ends where the closing quote stands, and tells what it was made from. -/
theorem quote_append_inj {a b : String} (h : quote a ++ r = quote b ++ s) : a = b ∧ r = s := by
  have hinner : a.toList.flatMap escape ++ '"' :: r = b.toList.flatMap escape ++ '"' :: s := by
    simpa [quote] using h
  obtain ⟨htext, hrest⟩ := escaped_append_inj hinner
  exact ⟨String.toList_inj.mp htext, hrest⟩

end Conformance.Text
