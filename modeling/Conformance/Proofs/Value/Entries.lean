import Conformance.Proofs.Value.Order
import Conformance.Value.Collection
import Mathlib.Data.List.Dedup

/-! # Ascending members and entries

What an insertion leaves, seen through membership and look-up, and that ascending collections are
determined by what is found in them.
-/

namespace Conformance.Value

/-! ## Members -/

/-- Members of a set and keys of a mapping stand in this way. -/
def Ascending (xs : List Value) : Prop := xs.Pairwise fun a b => compare a b = .lt

instance (xs : List Value) : Decidable (Ascending xs) :=
  inferInstanceAs (Decidable (xs.Pairwise _))

theorem Ascending.nodup {xs : List Value} (h : Ascending xs) : xs.Nodup :=
  h.imp ne_of_compare_lt

theorem Ascending.insertMember {xs : List Value} (h : Ascending xs) (v : Value) :
    Ascending (insertMember v xs) := by
  induction xs with
  | nil => exact List.pairwise_singleton _ _
  | cons x rest ih =>
    obtain ⟨hx, hrest⟩ := List.pairwise_cons.mp h
    simp only [Value.insertMember]
    split
    · next hlt =>
      refine List.pairwise_cons.mpr ⟨fun y hy => ?_, h⟩
      rcases List.mem_cons.mp hy with rfl | hy
      · exact hlt
      · exact compare_lt_trans hlt (hx y hy)
    · exact h
    · next hgt =>
      refine List.pairwise_cons.mpr ⟨fun y hy => ?_, ih hrest⟩
      rcases mem_insertMember.mp hy with rfl | hy
      · exact compare_gt_iff.mp hgt
      · exact hx y hy

theorem Ascending.foldl_insertMember {acc : List Value} (h : Ascending acc) (items : List Value) :
    Ascending (items.foldl (fun acc v => Value.insertMember v acc) acc) := by
  induction items generalizing acc with
  | nil => exact h
  | cons v rest ih => exact ih (h.insertMember v)

theorem filter_insertMember (k : Value) (xs : List Value) :
    (insertMember k xs).filter (· ≠ k) = xs.filter (· ≠ k) := by
  induction xs with
  | nil => simp [insertMember]
  | cons x rest ih =>
    simp only [insertMember]
    split
    · rw [List.filter_cons_of_neg (by simp)]
    · rfl
    · simp only [List.filter_cons, ih]

theorem ascending_members (items : List Value) : Ascending (members items) :=
  Ascending.foldl_insertMember List.Pairwise.nil items

theorem mem_foldl_insertMember {v : Value} {items acc : List Value} :
    v ∈ items.foldl (fun acc w => insertMember w acc) acc ↔ v ∈ items ∨ v ∈ acc := by
  induction items generalizing acc with
  | nil => simp
  | cons w rest ih =>
    rw [List.foldl_cons, ih, mem_insertMember, List.mem_cons]
    tauto

@[simp] theorem mem_members {v : Value} {items : List Value} : v ∈ members items ↔ v ∈ items := by
  simp [members, mem_foldl_insertMember]

/-- What stands at the head of two ascending lists with the same members is the least of them. -/
theorem Ascending.ext {xs ys : List Value} (hx : Ascending xs) (hy : Ascending ys)
    (h : ∀ v, v ∈ xs ↔ v ∈ ys) : xs = ys := by
  have hp : xs.Perm ys := (List.perm_ext_iff_of_nodup hx.nodup hy.nodup).mpr h
  exact hp.eq_of_pairwise (fun a b _ _ hab hba => absurd hba (compare_lt_asymm hab)) hx hy

theorem members_of_ascending {xs : List Value} (h : Ascending xs) : members xs = xs :=
  (ascending_members xs).ext h fun _ => mem_members

/-- Collecting loses exactly what is repeated. -/
theorem length_members (items : List Value) : (members items).length = items.dedup.length := by
  refine ((List.perm_ext_iff_of_nodup (ascending_members items).nodup
    (List.nodup_dedup items)).mpr fun v => ?_).length_eq
  rw [mem_members, List.mem_dedup]

theorem length_members_le (items : List Value) : (members items).length ≤ items.length := by
  rw [length_members]
  exact (List.dedup_sublist items).length_le

theorem length_members_eq_iff {items : List Value} :
    (members items).length = items.length ↔ items.Nodup := by
  rw [length_members]
  constructor
  · intro h
    exact List.dedup_eq_self.mp ((List.dedup_sublist items).eq_of_length h)
  · intro h
    rw [List.dedup_eq_self.mpr h]

/-! ## Entries -/

namespace Entries

theorem keys_insert (k v : Value) (m : Entries) :
    keys (insert k v m) = insertMember k (keys m) := by
  induction m with
  | nil => rfl
  | cons e rest ih =>
    obtain ⟨k', v'⟩ := e
    simp only [insert, keys, List.map_cons, insertMember]
    split
    · rfl
    · next h => rw [eq_of_compare h]; rfl
    · rw [List.map_cons]
      exact congrArg (k' :: ·) ih

theorem get?_insert_of_ne {k k' : Value} (h : k' ≠ k) (v : Value) (m : Entries) :
    get? k' (insert k v m) = get? k' m := by
  induction m with
  | nil => simp [insert, get?, h]
  | cons e rest ih =>
    obtain ⟨k₁, v₁⟩ := e
    simp only [insert]
    split
    · simp [get?, h]
    · next he =>
      have hk : k = k₁ := eq_of_compare he
      simp [get?, h, ← hk]
    · simp [get?, ih]

/-- An insertion changes what is found under its key and nothing else. -/
theorem get?_insert (k k' v : Value) (m : Entries) :
    get? k' (insert k v m) = if k' = k then some v else get? k' m := by
  split
  · next h => rw [h, get?_insert_self]
  · next h => exact get?_insert_of_ne h v m

theorem insert_comm_of_lt {k k' : Value} (h : compare k k' = .lt) (v v' : Value) (m : Entries) :
    insert k v (insert k' v' m) = insert k' v' (insert k v m) := by
  have hgt : compare k' k = .gt := compare_gt_iff.mpr h
  induction m with
  | nil => simp [insert, h, hgt]
  | cons e rest ih =>
    obtain ⟨x, w⟩ := e
    cases hx : compare k' x with
    | lt => simp [insert, hx, compare_lt_trans h hx, h, hgt]
    | eq =>
      obtain rfl := eq_of_compare hx
      simp [insert, h, hgt, hx]
    | gt => cases hk : compare k x <;> simp [insert, hx, hk, hgt, ih]

/-- It makes no difference which of two entries is inserted first, unless one replaces the other. -/
theorem insert_comm {k k' : Value} (h : k ≠ k') (v v' : Value) (m : Entries) :
    insert k v (insert k' v' m) = insert k' v' (insert k v m) := by
  cases hc : compare k k' with
  | lt => exact insert_comm_of_lt hc v v' m
  | eq => exact absurd (eq_of_compare hc) h
  | gt => exact (insert_comm_of_lt (compare_gt_iff.mp hc) v' v m).symm

theorem get?_eq_none_iff {k : Value} {m : Entries} : get? k m = none ↔ k ∉ keys m := by
  induction m with
  | nil => simp [get?, keys]
  | cons e rest ih =>
    obtain ⟨k', v⟩ := e
    by_cases h : k = k'
    · simp [get?, keys, h]
    · simpa [get?, keys, h] using ih

theorem exists_get?_of_mem_keys {k : Value} {m : Entries} (h : k ∈ keys m) :
    ∃ v, get? k m = some v := by
  refine Option.ne_none_iff_exists'.mp fun hn => ?_
  exact get?_eq_none_iff.mp hn h

theorem mem_of_get? {k v : Value} {m : Entries} (h : get? k m = some v) : (k, v) ∈ m := by
  induction m with
  | nil => simp [get?] at h
  | cons e rest ih =>
    obtain ⟨k', v'⟩ := e
    by_cases hk : k = k'
    · simp only [get?, if_pos hk, Option.some.injEq] at h
      simp [hk, h]
    · simp only [get?, if_neg hk] at h
      exact List.mem_cons_of_mem _ (ih h)

/-- Mappings with ascending keys are determined by what is found in them. -/
theorem ext_get? {m n : Entries} (hm : Ascending (keys m)) (hn : Ascending (keys n))
    (h : ∀ k, get? k m = get? k n) : m = n := by
  have hk : keys m = keys n := hm.ext hn fun k => by
    rw [← not_iff_not, ← get?_eq_none_iff, ← get?_eq_none_iff, h k]
  induction m generalizing n with
  | nil => exact (List.map_eq_nil_iff.mp hk.symm).symm
  | cons e rest ih =>
    obtain ⟨k, v⟩ := e
    cases n with
    | nil => simp [keys] at hk
    | cons e' rest' =>
      obtain ⟨k', v'⟩ := e'
      obtain ⟨rfl, hrest⟩ : k = k' ∧ keys rest = keys rest' := List.cons.inj hk
      obtain ⟨hlt, hm⟩ := List.pairwise_cons.mp hm
      have hn' : Ascending (keys rest') := (List.pairwise_cons.mp hn).2
      have hv : v = v' := by simpa [get?] using h k
      subst hv
      refine congrArg ((k, v) :: ·) (ih hm hn' (fun k₁ => ?_) hrest)
      by_cases he : k₁ = k
      · subst he
        have hk₁ : k₁ ∉ keys rest := fun hmem => ne_of_compare_lt (hlt k₁ hmem) rfl
        rw [get?_eq_none_iff.mpr hk₁, get?_eq_none_iff.mpr (hrest ▸ hk₁)]
      · simpa [get?, he] using h k₁

/-! ### Several insertions -/

/-- All entries one after the other, so that of several with one key the last is kept. -/
def insertAll (items : List (Value × Value)) (m : Entries) : Entries :=
  items.foldl (fun acc e => insert e.1 e.2 acc) m

theorem ofList_eq_insertAll (items : List (Value × Value)) :
    ofList items = insertAll items [] := rfl

theorem insertAll_append (xs ys : List (Value × Value)) (m : Entries) :
    insertAll (xs ++ ys) m = insertAll ys (insertAll xs m) := List.foldl_append

theorem keys_insertAll (items : List (Value × Value)) (m : Entries) :
    keys (insertAll items m) = (keys items).foldl (fun acc k => insertMember k acc) (keys m) := by
  induction items generalizing m with
  | nil => rfl
  | cons e rest ih => exact (ih (insert e.1 e.2 m)).trans (by rw [keys_insert]; rfl)

theorem keys_ofList (items : List (Value × Value)) : keys (ofList items) = members (keys items) :=
  keys_insertAll items []

theorem ascending_ofList (items : List (Value × Value)) : Ascending (keys (ofList items)) := by
  rw [keys_ofList]
  exact ascending_members _

theorem mem_keys_ofList {k : Value} {items : List (Value × Value)} :
    k ∈ keys (ofList items) ↔ k ∈ keys items := by
  rw [keys_ofList, mem_members]

/-- What is found after several insertions comes from them, or else was there before. -/
theorem get?_insertAll (k : Value) (items : List (Value × Value)) (m : Entries) :
    get? k (insertAll items m) = (get? k (ofList items)).or (get? k m) := by
  induction items generalizing m with
  | nil => rfl
  | cons e rest ih =>
    have hm := ih (insert e.1 e.2 m)
    have hnil := ih (insert e.1 e.2 [])
    change get? k (insertAll rest (insert e.1 e.2 m)) =
      (get? k (insertAll rest (insert e.1 e.2 []))).or (get? k m)
    rw [hm, hnil, get?_insert, get?_insert, Option.or_assoc]
    split <;> rfl

theorem get?_ofList_append (k : Value) (xs ys : List (Value × Value)) :
    get? k (ofList (xs ++ ys)) = (get? k (ofList ys)).or (get? k (ofList xs)) := by
  rw [ofList_eq_insertAll, insertAll_append, get?_insertAll, ← ofList_eq_insertAll]

theorem get?_ofList_eq_none {k : Value} {items : List (Value × Value)} (h : k ∉ keys items) :
    get? k (ofList items) = none :=
  get?_eq_none_iff.mpr fun hk => h (mem_keys_ofList.mp hk)

theorem mem_of_get?_ofList {k v : Value} {items : List (Value × Value)}
    (h : get? k (ofList items) = some v) : (k, v) ∈ items := by
  induction items with
  | nil => simp [ofList, get?] at h
  | cons e rest ih =>
    rw [← List.singleton_append, get?_ofList_append] at h
    rcases Option.or_eq_some_iff.mp h with h | ⟨-, h⟩
    · exact List.mem_cons_of_mem _ (ih h)
    · have he : (k, v) ∈ ofList [e] := mem_of_get? h
      rw [List.mem_singleton.mp he]
      exact List.mem_cons_self

theorem insertAll_insert {k : Value} {items : List (Value × Value)} (h : k ∉ keys items) (v : Value)
    (m : Entries) : insertAll items (insert k v m) = insert k v (insertAll items m) := by
  induction items generalizing m with
  | nil => rfl
  | cons e rest ih =>
    have hne : k ≠ e.1 := List.ne_of_not_mem_cons h
    have hrest : k ∉ keys rest := List.not_mem_of_not_mem_cons h
    change insertAll rest (insert e.1 e.2 (insert k v m)) = insert k v (insertAll rest _)
    rw [insert_comm (Ne.symm hne), ih hrest]

theorem insertAll_comm {xs ys : List (Value × Value)} (h : (keys xs).Disjoint (keys ys))
    (m : Entries) : insertAll xs (insertAll ys m) = insertAll ys (insertAll xs m) := by
  induction ys generalizing m with
  | nil => rfl
  | cons e rest ih =>
    have he : e.1 ∉ keys xs := fun hx => h hx List.mem_cons_self
    have hrest : (keys xs).Disjoint (keys rest) := fun k hx hy => h hx (List.mem_cons_of_mem _ hy)
    change insertAll xs (insertAll rest (insert e.1 e.2 m)) = insertAll rest (insert e.1 e.2 _)
    rw [ih hrest, insertAll_insert he]

def Includes (m : Entries) (items : List (Value × Value)) : Prop :=
  ∀ e ∈ items, get? e.1 m = some e.2

/-- Items of which no two disagree are all found. -/
theorem includes_ofList {items : List (Value × Value)}
    (h : ∀ e ∈ items, ∀ e' ∈ items, e.1 = e'.1 → e = e') : (ofList items).Includes items := by
  intro e he
  obtain ⟨w, hw⟩ := exists_get?_of_mem_keys
    (mem_keys_ofList.mpr (List.mem_map_of_mem (f := Prod.fst) he))
  have hmem : (e.1, w) ∈ items := mem_of_get?_ofList hw
  rw [hw, h e he (e.1, w) hmem rfl]

theorem includes_ofList_of_nodup {items : List (Value × Value)} (h : (keys items).Nodup) :
    (ofList items).Includes items :=
  includes_ofList fun _ he _ he' => List.inj_on_of_nodup_map h he he'

/-- A mapping is rebuilt from entries of its own that leave no key out. -/
theorem ofList_eq_of_includes {m : Entries} {items : List (Value × Value)}
    (hm : Ascending (keys m)) (h : m.Includes items) (hk : ∀ k ∈ keys m, k ∈ keys items) :
    ofList items = m := by
  refine ext_get? (ascending_ofList items) hm fun k => ?_
  by_cases hmem : k ∈ keys items
  · obtain ⟨v, hv⟩ := exists_get?_of_mem_keys (mem_keys_ofList.mpr hmem)
    rw [hv]
    exact (h _ (mem_of_get?_ofList hv)).symm
  · rw [get?_ofList_eq_none hmem, get?_eq_none_iff.mpr fun h' => hmem (hk k h')]

end Entries

end Conformance.Value
