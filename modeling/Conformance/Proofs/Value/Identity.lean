import Conformance.Proofs.Value.Entries

/-! # Values that compare equal are one value

The order of values is linear and ties only a value with itself, so that equality, the members of
sets and the keys of mappings are all decided by one comparison.
-/

namespace Conformance.Value

theorem compare_trans {a b c : Value} {o : Ordering} (hab : compare a b = o)
    (hbc : compare b c = o) : compare a c = o := by
  cases o with
  | lt => exact Std.TransCmp.lt_trans hab hbc
  | eq => exact Std.TransCmp.eq_trans hab hbc
  | gt => exact Std.TransCmp.gt_trans hab hbc

theorem beq_iff_compare {a b : Value} : (a == b) = true ↔ compare a b = .eq := by
  rw [beq_iff_eq, compare_eq_iff]

/-- Floating-point numbers are told apart bit by bit, the zeros and what is not a number too. -/
theorem compare_float_eq_iff {x y : Binary64} :
    compare (.float x) (.float y) = .eq ↔ x.bits = y.bits := by
  rw [compare_eq_iff, float.injEq]
  exact ⟨congrArg Binary64.bits, fun h => congrArg Binary64.mk h⟩

/-! ## Members -/

section Members

variable {a : Value} {xs : List Value}

theorem mem_iff_compare : a ∈ xs ↔ ∃ b ∈ xs, compare a b = .eq := by
  constructor
  · intro h
    exact ⟨a, h, compare_self a⟩
  · rintro ⟨b, hb, hab⟩
    rw [eq_of_compare hab]
    exact hb

theorem contains_ofMembers_iff :
    (ofMembers xs).contains a = true ↔ ∃ b ∈ xs, compare a b = .eq := by
  rw [ofMembers, contains, List.contains_iff_mem, mem_members, mem_iff_compare]

/-- Only a value that compares equal to a member adds nothing to a set. -/
theorem insertMember_eq_self_iff (hxs : Ascending xs) :
    insertMember a xs = xs ↔ ∃ b ∈ xs, compare a b = .eq := by
  rw [← mem_iff_compare]
  constructor
  · intro h
    rw [← h]
    exact mem_insertMember.mpr (.inl rfl)
  · intro h
    refine (hxs.insertMember a).ext hxs fun v => ?_
    rw [mem_insertMember]
    constructor
    · rintro (rfl | hv)
      · exact h
      · exact hv
    · exact .inr

end Members

/-! ## Keys -/

section Keys

variable {k : Value} {m : Entries}

theorem Entries.get?_of_mem (hm : Ascending (keys m)) {v : Value} (h : (k, v) ∈ m) :
    get? k m = some v := by
  obtain ⟨w, hw⟩ := exists_get?_of_mem_keys (List.mem_map_of_mem (f := Prod.fst) h)
  have heq : (k, w) = (k, v) := List.inj_on_of_nodup_map hm.nodup (mem_of_get? hw) h rfl
  rw [hw, (Prod.mk.inj heq).2]

theorem Entries.ofList_of_ascending (hm : Ascending (keys m)) : ofList m = m :=
  ofList_eq_of_includes hm (fun _ he => get?_of_mem hm he) fun _ hk => hk

/-- A new value for a key that is there already leaves all keys as they are. -/
theorem Entries.keys_insert_of_mem (hm : Ascending (keys m)) (hk : k ∈ keys m) (v : Value) :
    keys (insert k v m) = keys m := by
  rw [keys_insert, insertMember_eq_self_iff hm]
  exact mem_iff_compare.mp hk

theorem get?_map_eq_some_iff (hm : Ascending (Entries.keys m)) {v : Value} :
    (map m).get? k = some v ↔ ∃ e ∈ m, compare k e.1 = .eq ∧ e.2 = v := by
  constructor
  · intro h
    exact ⟨(k, v), Entries.mem_of_get? h, compare_self k, rfl⟩
  · rintro ⟨⟨k', v'⟩, he, hk, rfl⟩
    rw [eq_of_compare hk]
    exact Entries.get?_of_mem hm he

theorem Entries.get?_insert_eq (k k' v : Value) (m : Entries) :
    get? k' (insert k v m) = if compare k' k = .eq then some v else get? k' m := by
  simp only [get?_insert, compare_eq_iff]

end Keys

/-- The order is linear, it ties a value with nothing but the value itself, and what `==` says, what
a set contains and what is found under a key of a mapping follow it. -/
theorem compare_total (a b c : Value) :
    compare a b = (compare b a).swap ∧
    (∀ o, compare a b = o → compare b c = o → compare a c = o) ∧
    ((compare a b).isLE → (compare b c).isLE → (compare a c).isLE) ∧
    (compare a b = .eq ↔ a = b) ∧
    (∀ x y, compare (.float x) (.float y) = .eq ↔ x.bits = y.bits) ∧
    ((a == b) = true ↔ compare a b = .eq) ∧
    (∀ items, (ofMembers items).contains a = true ↔ ∃ v ∈ items, compare a v = .eq) ∧
    (∀ items, Ascending items →
      (insertMember a items = items ↔ ∃ v ∈ items, compare a v = .eq)) ∧
    (∀ m, Ascending (Entries.keys m) →
      ∀ v, (map m).get? a = some v ↔ ∃ e ∈ m, compare a e.1 = .eq ∧ e.2 = v) ∧
    ∀ m v, Entries.get? a (Entries.insert b v m) =
      if compare a b = .eq then some v else Entries.get? a m := by
  refine ⟨compare_swap a b, fun o => compare_trans, compare_isLE_trans, compare_eq_iff, ?_,
    beq_iff_compare, ?_, ?_, ?_, ?_⟩
  · intro x y
    exact compare_float_eq_iff
  · intro items
    exact contains_ofMembers_iff
  · intro items hitems
    exact insertMember_eq_self_iff hitems
  · intro m hm v
    exact get?_map_eq_some_iff hm
  · intro m v
    exact Entries.get?_insert_eq b a v m

def measured (x : Binary64) : Value := .map [(.str "at", .set [.float x])]

/-- The zeros are two, and what is not a number comes after both. -/
theorem compare_total_zeros : compare (measured Binary64.zero.neg) (measured .nan) = .lt := by
  have hzeros : compare (measured Binary64.zero.neg) (measured .zero) = .lt := by decide
  have hnan : compare (measured .zero) (measured .nan) = .lt := by decide
  exact (compare_total _ _ _).2.1 .lt hzeros hnan

end Conformance.Value
