import Conformance.Datum
import Conformance.Proofs.Result
import Conformance.Proofs.Value.Identity
import Conformance.Value.Json
import Mathlib.Data.List.Induction
import Mathlib.Logic.Relation

/-! # Collections that ascend at every depth

A set or a mapping has one form for what it holds: members and keys in ascending order, each once.
Collecting gives this form whatever it is given, so values that are put together from sorted ones
are sorted.
-/

namespace Conformance.Value

/-! ## Values inside a value -/

def content : Value → List Value
  | .list items => items
  | .tuple items => items
  | .set members => members
  | .map entries => entries.flatMap fun e => [e.1, e.2]
  | _ => []

theorem mem_content_map {m : Entries} {w : Value} :
    w ∈ (map m).content ↔ ∃ e ∈ m, w = e.1 ∨ w = e.2 := by
  simp [content]

theorem sizeOf_lt_of_mem_content {v w : Value} (h : w ∈ v.content) : sizeOf w < sizeOf v := by
  cases v with
  | list items | tuple items | set items =>
    have hw : sizeOf w < sizeOf items := List.sizeOf_lt_of_mem h
    simp only [list.sizeOf_spec, tuple.sizeOf_spec, set.sizeOf_spec]
    omega
  | map entries =>
    obtain ⟨⟨k, v⟩, he, hw⟩ := mem_content_map.mp h
    have hpair : sizeOf (k, v) < sizeOf entries := List.sizeOf_lt_of_mem he
    simp only [Prod.mk.sizeOf_spec, map.sizeOf_spec] at hpair ⊢
    rcases hw with rfl | rfl <;> omega
  | _ => cases h

@[elab_as_elim]
theorem content_induction {P : Value → Prop} (h : ∀ v, (∀ w ∈ v.content, P w) → P v) (v : Value) :
    P v :=
  h v fun w _ => content_induction h w
termination_by v
decreasing_by exact sizeOf_lt_of_mem_content ‹_›

/-- The second value is the first or lies somewhere inside it. -/
def Encloses : Value → Value → Prop := Relation.ReflTransGen fun v w => w ∈ v.content

/-- What holds of all that is reached holds here and of all that is reached from the next. -/
theorem forall_reflTransGen_iff {α : Type} {r : α → α → Prop} {P : α → Prop} {a : α} :
    (∀ b, Relation.ReflTransGen r a b → P b) ↔
      P a ∧ ∀ c, r a c → ∀ b, Relation.ReflTransGen r c b → P b := by
  constructor
  · intro h
    exact ⟨h a .refl, fun c hc b hb => h b (.head hc hb)⟩
  · rintro ⟨ha, hnext⟩ b hb
    rcases Relation.ReflTransGen.cases_head_iff.mp hb with rfl | ⟨c, hc, hb⟩
    · exact ha
    · exact hnext c hc b hb

/-! ## Sorted values -/

/-- The value itself, if it is a set or a mapping, has the order of its kind. -/
def Ascends : Value → Prop
  | .set members => Ascending members
  | .map entries => Ascending (Entries.keys entries)
  | _ => True

/-- Every set and every mapping ascends, at any depth. -/
def Sorted (v : Value) : Prop := ∀ w, v.Encloses w → w.Ascends

theorem sorted_iff {v : Value} : v.Sorted ↔ v.Ascends ∧ ∀ w ∈ v.content, w.Sorted :=
  forall_reflTransGen_iff

theorem sorted_of_content {v : Value} (h : v.Ascends) (hcontent : v.content = []) : v.Sorted := by
  rw [sorted_iff, hcontent]
  exact ⟨h, List.forall_mem_nil _⟩

theorem sorted_list_iff {items : List Value} : (list items).Sorted ↔ ∀ v ∈ items, v.Sorted := by
  rw [sorted_iff]
  exact and_iff_right trivial

theorem sorted_tuple_iff {items : List Value} : (tuple items).Sorted ↔ ∀ v ∈ items, v.Sorted := by
  rw [sorted_iff]
  exact and_iff_right trivial

theorem sorted_set_iff {members : List Value} :
    (set members).Sorted ↔ Ascending members ∧ ∀ v ∈ members, v.Sorted := sorted_iff

theorem sorted_map_iff {m : Entries} :
    (map m).Sorted ↔ Ascending (Entries.keys m) ∧ ∀ e ∈ m, e.1.Sorted ∧ e.2.Sorted := by
  rw [sorted_iff]
  refine and_congr_right fun _ => ?_
  simp only [mem_content_map]
  constructor
  · intro h e he
    exact ⟨h e.1 ⟨e, he, .inl rfl⟩, h e.2 ⟨e, he, .inr rfl⟩⟩
  · rintro h w ⟨e, he, rfl | rfl⟩
    · exact (h e he).1
    · exact (h e he).2

/-- Elements of a sorted collection are sorted, of whichever kind it is. -/
theorem Sorted.elements {v : Value} (h : v.Sorted) {items : List Value}
    (hitems : v.elements? = some items) : ∀ w ∈ items, w.Sorted := by
  have hcontent := (sorted_iff.mp h).2
  cases v <;> cases hitems <;> exact hcontent

theorem Sorted.get? {m : Entries} (h : (map m).Sorted) {k v : Value}
    (hv : Entries.get? k m = some v) : k.Sorted ∧ v.Sorted :=
  (sorted_map_iff.mp h).2 (k, v) (Entries.mem_of_get? hv)

/-! ## Putting values together -/

theorem Entries.mem_of_mem_insert {e : Value × Value} {k v : Value} {m : Entries}
    (h : e ∈ insert k v m) : e = (k, v) ∨ e ∈ m := by
  induction m with
  | nil => exact .inl (List.mem_singleton.mp h)
  | cons e' rest ih =>
    simp only [insert] at h
    split at h
    · exact List.mem_cons.mp h
    · exact (List.mem_cons.mp h).imp_right (List.mem_cons_of_mem e')
    · rcases List.mem_cons.mp h with rfl | h
      · exact .inr List.mem_cons_self
      · exact (ih h).imp_right (List.mem_cons_of_mem e')

theorem sorted_map_nil : (map []).Sorted := sorted_of_content List.Pairwise.nil rfl

theorem Sorted.insert {m : Entries} (hm : (map m).Sorted) {k v : Value} (hk : k.Sorted)
    (hv : v.Sorted) : (map (Entries.insert k v m)).Sorted := by
  obtain ⟨hkeys, hentries⟩ := sorted_map_iff.mp hm
  refine sorted_map_iff.mpr ⟨?_, fun e he => ?_⟩
  · rw [Entries.keys_insert]
    exact hkeys.insertMember k
  · rcases Entries.mem_of_mem_insert he with rfl | he
    · exact ⟨hk, hv⟩
    · exact hentries e he

theorem Sorted.insertAll {m : Entries} (hm : (map m).Sorted) {items : List (Value × Value)}
    (hitems : ∀ e ∈ items, e.1.Sorted ∧ e.2.Sorted) : (map (Entries.insertAll items m)).Sorted := by
  induction items generalizing m with
  | nil => exact hm
  | cons e rest ih =>
    obtain ⟨⟨hk, hv⟩, hrest⟩ := List.forall_mem_cons.mp hitems
    exact ih (hm.insert hk hv) hrest

theorem sorted_ofEntries {items : List (Value × Value)}
    (h : ∀ e ∈ items, e.1.Sorted ∧ e.2.Sorted) : (ofEntries items).Sorted :=
  sorted_map_nil.insertAll h

theorem sorted_ofMembers {items : List Value} (h : ∀ v ∈ items, v.Sorted) :
    (ofMembers items).Sorted :=
  sorted_set_iff.mpr ⟨ascending_members items, fun v hv => h v (mem_members.mp hv)⟩

/-! ## What a collection holds decides which one it is -/

theorem ofMembers_eq_iff {xs ys : List Value} :
    ofMembers xs = ofMembers ys ↔ ∀ v, v ∈ xs ↔ v ∈ ys := by
  rw [ofMembers, ofMembers, set.injEq]
  constructor
  · intro h v
    rw [← mem_members, h, mem_members]
  · intro h
    refine (ascending_members xs).ext (ascending_members ys) fun v => ?_
    rw [mem_members, mem_members, h v]

/-- Of several entries with one key the last is found. -/
theorem get?_ofEntries (items : List (Value × Value)) (k : Value) :
    (ofEntries items).get? k = items.reverse.lookup k := by
  change Entries.get? k (Entries.ofList items) = _
  induction items using List.reverseRecOn with
  | nil => rfl
  | append_singleton front e ih =>
    rw [Entries.get?_ofList_append, ih, List.reverse_append, List.reverse_singleton,
      List.singleton_append, List.lookup_cons]
    by_cases hk : k = e.1
    · simp [Entries.ofList, Entries.insert, Entries.get?, hk]
    · simp [Entries.ofList, Entries.insert, Entries.get?, hk, beq_false_of_ne hk]

theorem ofEntries_eq_iff {xs ys : List (Value × Value)} :
    ofEntries xs = ofEntries ys ↔ ∀ k, xs.reverse.lookup k = ys.reverse.lookup k := by
  constructor
  · intro h k
    rw [← get?_ofEntries, h, get?_ofEntries]
  · intro h
    refine congrArg map (Entries.ext_get? (Entries.ascending_ofList xs)
      (Entries.ascending_ofList ys) fun k => ?_)
    exact (get?_ofEntries xs k).trans ((h k).trans (get?_ofEntries ys k).symm)

/-! ## Values that are read -/

mutual

theorem sorted_ofJson : (j : Json) → (ofJson j).Sorted
  | .null => sorted_of_content trivial rfl
  | .bool _ => sorted_of_content trivial rfl
  | .number n => by
    rw [ofJson, ofJsonNumber]
    split <;> exact sorted_of_content trivial rfl
  | .string _ => sorted_of_content trivial rfl
  | .array items => sorted_list_iff.mpr (sorted_ofJsonItems items)
  | .object members => sorted_ofEntries (sorted_ofJsonMembers members)

theorem sorted_ofJsonItems : (items : List Json) → ∀ v ∈ ofJsonItems items, v.Sorted
  | [] => List.forall_mem_nil _
  | j :: rest => List.forall_mem_cons.mpr ⟨sorted_ofJson j, sorted_ofJsonItems rest⟩

theorem sorted_ofJsonMembers : (members : List (String × Json)) →
    ∀ e ∈ ofJsonMembers members, e.1.Sorted ∧ e.2.Sorted
  | [] => List.forall_mem_nil _
  | (_, j) :: rest => List.forall_mem_cons.mpr
      ⟨⟨sorted_of_content trivial rfl, sorted_ofJson j⟩, sorted_ofJsonMembers rest⟩

end

mutual

theorem sorted_ofDatum : (d : Datum) → ∀ {v}, ofDatum d = .ok v → v.Sorted
  | .unit, _, h | .none, _, h | .bool _, _, h | .signed _, _, h | .float _, _, h
  | .single _, _, h | .text _, _, h => by
    cases h
    exact sorted_of_content trivial rfl
  | .unsigned n, _, h => by
    cases h
    rw [ofUnsigned]
    split <;> exact sorted_of_content trivial rfl
  | .some d, _, h => sorted_ofDatum d h
  | .seq items, _, h => by
    obtain ⟨vs, hvs, rfl⟩ := Result.map_ok_iff.mp h
    exact sorted_list_iff.mpr (sorted_ofDatumItems items hvs)
  | .map entries, _, h => by
    obtain ⟨es, hes, rfl⟩ := Result.map_ok_iff.mp h
    exact sorted_ofEntries (sorted_ofDatumEntries entries hes)

theorem sorted_ofDatumItems : (items : List Datum) → ∀ {vs}, ofDatumItems items = .ok vs →
    ∀ v ∈ vs, v.Sorted
  | [], _, h => by
    cases h
    exact List.forall_mem_nil _
  | d :: rest, _, h => by
    obtain ⟨v, hv, h⟩ := Result.bind_ok_iff.mp h
    obtain ⟨vs, hvs, h⟩ := Result.bind_ok_iff.mp h
    cases h
    exact List.forall_mem_cons.mpr ⟨sorted_ofDatum d hv, sorted_ofDatumItems rest hvs⟩

theorem sorted_ofDatumEntries : (entries : List (Datum × Datum)) →
    ∀ {es}, ofDatumEntries entries = .ok es → ∀ e ∈ es, e.1.Sorted ∧ e.2.Sorted
  | [], _, h => by
    cases h
    exact List.forall_mem_nil _
  | (k, d) :: rest, _, h => by
    obtain ⟨key, hkey, h⟩ := Result.bind_ok_iff.mp h
    obtain ⟨v, hv, h⟩ := Result.bind_ok_iff.mp h
    obtain ⟨es, hes, h⟩ := Result.bind_ok_iff.mp h
    cases h
    exact List.forall_mem_cons.mpr
      ⟨⟨sorted_ofDatum k hkey, sorted_ofDatum d hv⟩, sorted_ofDatumEntries rest hes⟩

end

end Conformance.Value
