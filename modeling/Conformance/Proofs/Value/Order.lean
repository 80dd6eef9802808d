import Conformance.Value

/-! # The order of values is linear

Values of different variants are ordered by variant alone, so transitivity is only a matter of
values of one variant, and there it is that of numbers, texts and lexicographic lists.
-/

namespace Conformance.Value

theorem compare_of_rank_ne {a b : Value} (h : a.rank ≠ b.rank) :
    compare a b = Ord.compare a.rank b.rank := by
  cases a <;> cases b <;> first | rfl | exact absurd rfl h

theorem rank_le_of_compare_lt {a b : Value} (h : compare a b = .lt) : a.rank ≤ b.rank := by
  by_cases hr : a.rank = b.rank
  · exact Nat.le_of_eq hr
  · rw [compare_of_rank_ne hr] at h
    exact Nat.le_of_lt (Nat.compare_eq_lt.mp h)

mutual

theorem compare_swap : ∀ a b : Value, compare a b = (compare b a).swap
  | .null, b => by cases b <;> simp [compare, rank, Nat.compare_eq_ite_lt]
  | .bool a, b => by
    cases b <;> simp [compare, rank, Nat.compare_eq_ite_lt, Std.OrientedOrd.eq_swap (a := a)]
  | .int a, b => by
    cases b <;> simp [compare, rank, Nat.compare_eq_ite_lt, Std.OrientedOrd.eq_swap (a := a)]
  | .float a, b => by
    cases b <;> simp [compare, rank, Nat.compare_eq_ite_lt, Binary64.compareRank,
      Std.OrientedOrd.eq_swap (a := a.rankKey)]
  | .str a, b => by
    cases b <;> simp [compare, rank, Nat.compare_eq_ite_lt, Std.OrientedOrd.eq_swap (a := a)]
  | .list xs, b => by
    cases b <;> simp [compare, rank, Nat.compare_eq_ite_lt, compareItems_swap xs]
  | .tuple xs, b => by
    cases b <;> simp [compare, rank, Nat.compare_eq_ite_lt, compareItems_swap xs]
  | .set xs, b => by
    cases b <;> simp [compare, rank, Nat.compare_eq_ite_lt, compareItems_swap xs]
  | .map xs, b => by
    cases b <;> simp [compare, rank, Nat.compare_eq_ite_lt, compareEntries_swap xs]

theorem compareItems_swap : ∀ xs ys : List Value, compareItems xs ys = (compareItems ys xs).swap
  | [], ys => by cases ys <;> simp [compareItems]
  | x :: xs, [] => by simp [compareItems]
  | x :: xs, y :: ys => by
    simp [compareItems, compare_swap x y, compareItems_swap xs ys, Ordering.swap_then]

theorem compareEntries_swap :
    ∀ xs ys : List (Value × Value), compareEntries xs ys = (compareEntries ys xs).swap
  | [], ys => by cases ys <;> simp [compareEntries]
  | x :: xs, [] => by simp [compareEntries]
  | (k, v) :: xs, (k', v') :: ys => by
    simp [compareEntries, compare_swap k k', compare_swap v v', compareEntries_swap xs ys,
      Ordering.swap_then]

end

/-- Within one variant transitivity is left to the content. -/
theorem compare_lt_trans_of_rank {a b c : Value} (hab : compare a b = .lt)
    (hbc : compare b c = .lt)
    (same : a.rank = b.rank → b.rank = c.rank → compare a c = .lt) : compare a c = .lt := by
  have h₁ := rank_le_of_compare_lt hab
  have h₂ := rank_le_of_compare_lt hbc
  by_cases hr : a.rank = c.rank
  · exact same (by omega) (by omega)
  · rw [compare_of_rank_ne hr]
    exact Nat.compare_eq_lt.mpr (by omega)

mutual

theorem compare_lt_trans :
    ∀ {a b c : Value}, compare a b = .lt → compare b c = .lt → compare a c = .lt
  | .null, b, c, hab, hbc => compare_lt_trans_of_rank hab hbc fun hb hc => by
    cases b <;> simp [rank] at hb
    simp [compare] at hab
  | .bool a, b, c, hab, hbc => compare_lt_trans_of_rank hab hbc fun hb hc => by
    cases b <;> simp [rank] at hb
    cases c <;> simp [rank] at hc
    simp only [compare] at hab hbc ⊢
    exact Std.TransCmp.lt_trans hab hbc
  | .int a, b, c, hab, hbc => compare_lt_trans_of_rank hab hbc fun hb hc => by
    cases b <;> simp [rank] at hb
    cases c <;> simp [rank] at hc
    simp only [compare] at hab hbc ⊢
    exact Std.TransCmp.lt_trans hab hbc
  | .float a, b, c, hab, hbc => compare_lt_trans_of_rank hab hbc fun hb hc => by
    cases b <;> simp [rank] at hb
    cases c <;> simp [rank] at hc
    simp only [compare, Binary64.compareRank] at hab hbc ⊢
    exact Std.TransCmp.lt_trans hab hbc
  | .str a, b, c, hab, hbc => compare_lt_trans_of_rank hab hbc fun hb hc => by
    cases b <;> simp [rank] at hb
    cases c <;> simp [rank] at hc
    simp only [compare] at hab hbc ⊢
    exact Std.TransCmp.lt_trans hab hbc
  | .list xs, b, c, hab, hbc => compare_lt_trans_of_rank hab hbc fun hb hc => by
    cases b <;> simp [rank] at hb
    cases c <;> simp [rank] at hc
    simp only [compare] at hab hbc ⊢
    exact compareItems_lt_trans hab hbc
  | .tuple xs, b, c, hab, hbc => compare_lt_trans_of_rank hab hbc fun hb hc => by
    cases b <;> simp [rank] at hb
    cases c <;> simp [rank] at hc
    simp only [compare] at hab hbc ⊢
    exact compareItems_lt_trans hab hbc
  | .set xs, b, c, hab, hbc => compare_lt_trans_of_rank hab hbc fun hb hc => by
    cases b <;> simp [rank] at hb
    cases c <;> simp [rank] at hc
    simp only [compare] at hab hbc ⊢
    exact compareItems_lt_trans hab hbc
  | .map xs, b, c, hab, hbc => compare_lt_trans_of_rank hab hbc fun hb hc => by
    cases b <;> simp [rank] at hb
    cases c <;> simp [rank] at hc
    simp only [compare] at hab hbc ⊢
    exact compareEntries_lt_trans hab hbc

theorem compareItems_lt_trans : ∀ {xs ys zs : List Value},
    compareItems xs ys = .lt → compareItems ys zs = .lt → compareItems xs zs = .lt
  | [], ys, zs, hxy, hyz => by
    cases zs with
    | nil => cases ys <;> simp [compareItems] at hxy hyz
    | cons z zs => simp [compareItems]
  | x :: xs, [], zs, hxy, hyz => by simp [compareItems] at hxy
  | x :: xs, y :: ys, [], hxy, hyz => by simp [compareItems] at hyz
  | x :: xs, y :: ys, z :: zs, hxy, hyz => by
    simp only [compareItems, Ordering.then_eq_lt] at hxy hyz ⊢
    rcases hxy with hx | ⟨hx, hxs⟩ <;> rcases hyz with hy | ⟨hy, hys⟩
    · exact .inl (compare_lt_trans hx hy)
    · exact .inl (eq_of_compare hy ▸ hx)
    · exact .inl (eq_of_compare hx ▸ hy)
    · exact .inr ⟨eq_of_compare hx ▸ hy, compareItems_lt_trans hxs hys⟩

theorem compareEntries_lt_trans : ∀ {xs ys zs : List (Value × Value)},
    compareEntries xs ys = .lt → compareEntries ys zs = .lt → compareEntries xs zs = .lt
  | [], ys, zs, hxy, hyz => by
    cases zs with
    | nil => cases ys <;> simp [compareEntries] at hxy hyz
    | cons z zs => simp [compareEntries]
  | x :: xs, [], zs, hxy, hyz => by simp [compareEntries] at hxy
  | x :: xs, y :: ys, [], hxy, hyz => by simp [compareEntries] at hyz
  | (k, v) :: xs, (k₁, v₁) :: ys, (k₂, v₂) :: zs, hxy, hyz => by
    simp only [compareEntries, Ordering.then_eq_lt] at hxy hyz ⊢
    rcases hxy with hk | ⟨hk, hv⟩ <;> rcases hyz with hk' | ⟨hk', hv'⟩
    · exact .inl (compare_lt_trans hk hk')
    · exact .inl (eq_of_compare hk' ▸ hk)
    · exact .inl (eq_of_compare hk ▸ hk')
    · refine .inr ⟨eq_of_compare hk ▸ hk', ?_⟩
      rcases hv with hv | ⟨hv, hs⟩ <;> rcases hv' with hv' | ⟨hv', hs'⟩
      · exact .inl (compare_lt_trans hv hv')
      · exact .inl (eq_of_compare hv' ▸ hv)
      · exact .inl (eq_of_compare hv ▸ hv')
      · exact .inr ⟨eq_of_compare hv ▸ hv', compareEntries_lt_trans hs hs'⟩

end

theorem compare_gt_iff {a b : Value} : compare a b = .gt ↔ compare b a = .lt := by
  rw [compare_swap a b]
  cases compare b a <;> simp

theorem ne_of_compare_lt {a b : Value} (h : compare a b = .lt) : a ≠ b := by
  rintro rfl
  simp [compare_self] at h

theorem compare_lt_asymm {a b : Value} (h : compare a b = .lt) : compare b a ≠ .lt := by
  rw [compare_swap b a, h]
  decide

theorem compare_isLE_trans {a b c : Value} (hab : (compare a b).isLE) (hbc : (compare b c).isLE) :
    (compare a c).isLE := by
  rw [Ordering.isLE_iff_eq_lt_or_eq_eq] at hab hbc ⊢
  rcases hab with hab | hab
  · rcases hbc with hbc | hbc
    · exact .inl (compare_lt_trans hab hbc)
    · exact .inl (eq_of_compare hbc ▸ hab)
  · rw [eq_of_compare hab]
    exact hbc

instance : Std.TransCmp Value.compare where
  eq_swap {a b} := compare_swap a b
  isLE_trans := compare_isLE_trans

instance : Std.LawfulEqCmp Value.compare where
  compare_self {a} := compare_self a
  eq_of_compare := eq_of_compare

end Conformance.Value
