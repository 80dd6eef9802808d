import Conformance.Proofs.Address.Colons

/-! # The written form of an address of version 6

Every address has one written form, and the form denotes the address. Of the longest runs of groups
of zero the first is left out, unless it is a single group. An address of version 4 behind the
prefix that is meant for one is written as such.
-/

namespace Conformance.Address.V6

/-- All of the `n` groups from the `i`-th on are zero. -/
def Run (gs : List UInt16) (i n : Nat) : Prop := ∀ k < n, gs[i + k]? = some 0

def IsMapped (x : V6) (a : V4) : Prop := x.groups = [0, 0, 0, 0, 0, 0xFFFF] ++ ofV4 a

inductive Written : List Char → V6 → Prop
  | mapped {x a} : IsMapped x a → Written ("::ffff:".toList ++ a.chars) x
  | compressed {x front n back} : (∀ a, ¬ IsMapped x a) →
      x.groups = front ++ List.replicate n 0 ++ back → 2 ≤ n →
      (∀ i m, Run x.groups i m → m ≤ n) → (∀ i < front.length, ¬ Run x.groups i n) →
      Written (joinGroups front ++ ':' :: ':' :: joinGroups back) x
  | plain {x} : (∀ a, ¬ IsMapped x a) → (∀ i n, Run x.groups i n → n < 2) →
      Written (joinGroups x.groups) x

/-! ## Mapped addresses -/

section Mapped

variable {x : V6} {a : V4}

/-- The two octets of a group. -/
theorem octets_eq_iff {g : UInt16} {b c : UInt8} :
    g = b.toUInt16 * 256 + c.toUInt16 ↔ (g >>> 8).toUInt8 = b ∧ g.toUInt8 = c := by
  have hb : b.toNat < 256 := b.toNat_lt
  have hc : c.toNat < 256 := c.toNat_lt
  have hg : g.toNat < 65536 := g.toNat_lt
  have hjoined : (b.toUInt16 * 256 + c.toUInt16).toNat = b.toNat * 256 + c.toNat := by
    have hmul : (b.toUInt16 * 256).toNat = b.toNat * 256 % 65536 := UInt16.toNat_mul _ _
    have hadd : (b.toUInt16 * 256 + c.toUInt16).toNat =
        ((b.toUInt16 * 256).toNat + c.toNat) % 65536 := UInt16.toNat_add _ _
    omega
  have hhigh : (g >>> 8).toUInt8.toNat = g.toNat / 256 % 256 := by
    rw [UInt16.toNat_toUInt8, UInt16.toNat_shiftRight, Nat.shiftRight_eq_div_pow]
    rfl
  have hlow : g.toUInt8.toNat = g.toNat % 256 := UInt16.toNat_toUInt8 g
  rw [← UInt16.toNat_inj, ← UInt8.toNat_inj, ← UInt8.toNat_inj, hjoined, hhigh, hlow]
  omega

theorem mapped?_eq_some_iff : x.mapped? = some a ↔ IsMapped x a := by
  rw [mapped?, IsMapped]
  constructor
  · intro h
    split at h
    · next g h' hgroups =>
      cases h
      rw [hgroups, ofV4, ← octets_eq_iff.mpr ⟨rfl, rfl⟩, ← octets_eq_iff.mpr ⟨rfl, rfl⟩]
      rfl
    · cases h
  · intro h
    obtain ⟨hfirst, hsecond⟩ := octets_eq_iff.mp (rfl : a.a.toUInt16 * 256 + a.b.toUInt16 = _)
    obtain ⟨hthird, hfourth⟩ := octets_eq_iff.mp (rfl : a.c.toUInt16 * 256 + a.d.toUInt16 = _)
    rw [h, ofV4]
    simp only [List.cons_append, List.nil_append, hfirst, hsecond, hthird, hfourth]

theorem mapped?_eq_none_iff : x.mapped? = none ↔ ∀ a, ¬ IsMapped x a := by
  simp only [Option.eq_none_iff_forall_ne_some, Ne, mapped?_eq_some_iff]

end Mapped

/-! ## The longest run -/

section Runs

variable {gs front back : List UInt16} {i n : Nat}

theorem le_zeros_iff : n ≤ zeros gs ↔ ∀ k < n, gs[k]? = some 0 := by
  induction gs generalizing n with
  | nil =>
    constructor
    · intro h k hk
      exact absurd (Nat.lt_of_lt_of_le hk h) (Nat.not_lt_zero k)
    · intro h
      by_contra hn
      cases h 0 (Nat.pos_of_ne_zero fun hzero => hn (hzero ▸ Nat.zero_le _))
  | cons g rest ih =>
    cases n with
    | zero => simp
    | succ n =>
      have hstep : zeros (g :: rest) = if g = 0 then zeros rest + 1 else 0 := by
        rw [zeros, List.takeWhile_cons]
        by_cases hg : g = 0 <;> simp [hg, zeros]
      rw [hstep, Nat.forall_lt_succ_left]
      by_cases hg : g = 0
      · simp [hg, ih]
      · simp [hg]

theorem run_iff : Run gs i n ↔ n ≤ zeros (gs.drop i) := by
  simp only [Run, le_zeros_iff, List.getElem?_drop]

theorem Run.split (h : Run gs i n) :
    gs = gs.take i ++ List.replicate n 0 ++ gs.drop (i + n) := by
  have hzeros : (gs.drop i).take n = List.replicate n 0 := by
    apply List.ext_getElem?
    intro k
    by_cases hk : k < n
    · rw [List.getElem?_take_of_lt hk, List.getElem?_drop, h k hk, List.getElem?_replicate_of_lt hk]
    · rw [List.getElem?_eq_none (by simp; omega), List.getElem?_eq_none (by simp; omega)]
  rw [← hzeros, List.append_assoc, ← List.drop_drop, List.take_append_drop, List.take_append_drop]

theorem run_replicate : Run (front ++ List.replicate n 0 ++ back) front.length n := by
  intro k hk
  rw [List.append_assoc, List.getElem?_append_right (Nat.le_add_right _ _), Nat.add_sub_cancel_left,
    List.getElem?_append_left (by rwa [List.length_replicate]), List.getElem?_replicate_of_lt hk]

/-- An index where `f` is greatest among the first `k`, and the first such index. -/
structure Greatest (f : Nat → Nat) (k : Nat) (best : Nat × Nat) : Prop where
  attained : best.2 ≤ f best.1
  most : ∀ i < k, f i ≤ best.2
  first : ∀ i < best.1, f i < best.2

/-- One more index takes over only where `f` is greater there. -/
theorem Greatest.step {f : Nat → Nat} {k : Nat} {best : Nat × Nat} (h : Greatest f k best) :
    Greatest f (k + 1) (if best.2 < f k then (k, f k) else best) := by
  split
  · next hmore =>
    have hbefore : ∀ i < k, f i < f k := fun i hi => lt_of_le_of_lt (h.most i hi) hmore
    refine ⟨le_rfl, fun i hi => ?_, hbefore⟩
    rcases Nat.lt_succ_iff_lt_or_eq.mp hi with hi | rfl
    · exact (hbefore i hi).le
    · exact le_rfl
  · next hmore =>
    refine ⟨h.attained, fun i hi => ?_, h.first⟩
    rcases Nat.lt_succ_iff_lt_or_eq.mp hi with hi | rfl
    · exact h.most i hi
    · exact Nat.le_of_not_lt hmore

theorem greatest_foldl (f : Nat → Nat) (k : Nat) :
    Greatest f k ((List.range k).foldl
      (fun best i => if best.2 < f i then (i, f i) else best) (0, 0)) := by
  induction k with
  | zero =>
    exact ⟨Nat.zero_le _, fun _ h => absurd h (Nat.not_lt_zero _),
      fun _ h => absurd h (Nat.not_lt_zero _)⟩
  | succ k ih =>
    rw [List.range_succ, List.foldl_append, List.foldl_cons, List.foldl_nil]
    exact ih.step

/-- The run that is left out is one of the longest, and the first of them. -/
theorem greatest_longestGap (gs : List UInt16) :
    Greatest (fun i => zeros (gs.drop i)) gs.length (longestGap gs) :=
  greatest_foldl _ _

theorem run_longestGap (gs : List UInt16) : Run gs (longestGap gs).1 (longestGap gs).2 :=
  run_iff.mpr (greatest_longestGap gs).attained

theorem Run.le_longestGap (h : Run gs i n) : n ≤ (longestGap gs).2 := by
  by_cases hi : i < gs.length
  · exact (run_iff.mp h).trans ((greatest_longestGap gs).most i hi)
  · -- Behind the last group a run has no length, and these indices are not looked at.
    have hnil : gs.drop i = [] := List.drop_eq_nil_of_le (Nat.le_of_not_lt hi)
    have hzero := run_iff.mp h
    rw [hnil] at hzero
    exact hzero.trans (Nat.zero_le _)

theorem not_run_of_lt_longestGap (hi : i < (longestGap gs).1) : ¬ Run gs i (longestGap gs).2 := by
  intro h
  exact absurd (run_iff.mp h) (Nat.not_le_of_lt ((greatest_longestGap gs).first i hi))

theorem longestGap_eq (h : Run gs i n) (most : ∀ j m, Run gs j m → m ≤ n)
    (first : ∀ j < i, ¬ Run gs j n) : longestGap gs = (i, n) := by
  have hlength : (longestGap gs).2 = n :=
    le_antisymm (most _ _ (run_longestGap gs)) h.le_longestGap
  have hstart : (longestGap gs).1 = i := by
    rcases Nat.lt_trichotomy (longestGap gs).1 i with hlt | heq | hgt
    · exact absurd (hlength ▸ run_longestGap gs) (first _ hlt)
    · exact heq
    · exact absurd (hlength ▸ h) (not_run_of_lt_longestGap hgt)
  exact Prod.ext hstart hlength

end Runs

/-! ## The text of an address -/

section Texts

variable {cs : List Char} {g : UInt16} {gs : List UInt16} {x y : V6}

theorem row_joinGroups {atEnd : Bool} (hne : gs ≠ []) : Row atEnd (joinGroups gs) gs := by
  induction gs with
  | nil => exact absurd rfl hne
  | cons g rest ih =>
    cases rest with
    | nil => exact .group (group_groupChars g)
    | cons h rest => exact .cons (group_groupChars g) (ih (List.cons_ne_nil _ _))

theorem part_joinGroups (atEnd : Bool) (gs : List UInt16) : Part atEnd (joinGroups gs) gs := by
  by_cases hne : gs = []
  · subst hne
    exact .empty
  · exact .row (row_joinGroups hne)

theorem chars_of_unmapped (h : ∀ a, ¬ IsMapped x a) : x.chars =
    if 2 ≤ (longestGap x.groups).2 then
      joinGroups (x.groups.take (longestGap x.groups).1) ++ ':' :: ':' ::
        joinGroups (x.groups.drop ((longestGap x.groups).1 + (longestGap x.groups).2))
    else joinGroups x.groups := by
  rw [chars, mapped?_eq_none_iff.mpr h]

/-- One form is written for every address. -/
theorem written_iff : Written cs x ↔ cs = x.chars := by
  constructor
  · intro h
    cases h with
    | mapped h => rw [chars, mapped?_eq_some_iff.mpr h]
    | compressed hother hx hn hmost hfirst =>
      next front n back =>
      have hgap : longestGap x.groups = (front.length, n) :=
        longestGap_eq (hx ▸ run_replicate) hmost hfirst
      have hback : x.groups.drop (front.length + n) = back := by
        rw [hx, List.drop_left' (by simp)]
      have hfront : x.groups.take front.length = front := by
        rw [hx, List.append_assoc, List.take_left]
      rw [chars_of_unmapped hother, hgap, if_pos hn, hfront, hback]
    | plain hother hshort =>
      have hlength : ¬ 2 ≤ (longestGap x.groups).2 :=
        Nat.not_le_of_lt (hshort _ _ (run_longestGap x.groups))
      rw [chars_of_unmapped hother, if_neg hlength]
  · rintro rfl
    cases hmapped : x.mapped? with
    | some a =>
      rw [chars, hmapped]
      exact .mapped (mapped?_eq_some_iff.mp hmapped)
    | none =>
      have hother := mapped?_eq_none_iff.mp hmapped
      rw [chars_of_unmapped hother]
      split
      · next hlength =>
        refine .compressed hother (run_longestGap _).split hlength (fun i m => Run.le_longestGap) ?_
        intro i hi
        rw [List.length_take] at hi
        exact not_run_of_lt_longestGap (by omega)
      · next hlength =>
        exact .plain hother fun i n hrun => lt_of_le_of_lt hrun.le_longestGap (by omega)

theorem group_ffff : Group "ffff".toList 0xFFFF := group_groupChars 0xFFFF

/-- The form that is written for an address denotes it. -/
theorem Written.denotes (h : Written cs x) : Denotes cs x := by
  cases h with
  | mapped hx =>
    next a =>
    have hquad : Row true a.chars (ofV4 a) := .quad rfl (V4.denotes_iff.mpr rfl)
    have hgroups : x.groups = [] ++ List.replicate (4 + 1) 0 ++ 0xFFFF :: ofV4 a := hx
    exact .gap .empty (.row (.cons group_ffff hquad)) hgroups
  | compressed _ hx hn _ _ =>
    obtain ⟨m, rfl⟩ := Nat.exists_eq_add_of_le' (Nat.le_of_succ_le hn)
    exact .gap (part_joinGroups false _) (part_joinGroups true _) hx
  | plain => exact .full (row_joinGroups x.groups_ne_nil)

theorem read?_chars (x : V6) : read? x.chars = some x :=
  read?_eq_some_iff.mpr (written_iff.mpr rfl).denotes

end Texts

end Conformance.Address.V6
