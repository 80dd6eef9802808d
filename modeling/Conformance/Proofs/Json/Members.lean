import Conformance.Proofs.Value.Sorted

/-! # Names of an object

Members of an object are put in order just as entries of a mapping are, and a list that is in order
already is left as it is.
-/

namespace Conformance

namespace Json

/-- Names ascend, so that none of them stands twice. -/
def Named (members : List (String × Json)) : Prop :=
  members.Pairwise fun a b => compare a.1 b.1 = .lt

theorem sortMembers_append_singleton (front : List (String × Json)) (m : String × Json) :
    sortMembers (front ++ [m]) = insertMember m.1 m.2 (sortMembers front) := by
  rw [sortMembers, List.foldl_append]
  rfl

theorem insertMember_of_last {name : String} {j : Json} {members : List (String × Json)}
    (h : ∀ m ∈ members, compare m.1 name = .lt) :
    insertMember name j members = members ++ [(name, j)] := by
  induction members with
  | nil => rfl
  | cons m rest ih =>
    obtain ⟨hm, hrest⟩ := List.forall_mem_cons.mp h
    have hgt : compare name m.1 = .gt := Std.OrientedCmp.gt_iff_lt.mpr hm
    rw [insertMember, hgt, List.cons_append, ← ih hrest]

theorem sortMembers_of_named {members : List (String × Json)} (h : Named members) :
    sortMembers members = members := by
  induction members using List.reverseRecOn with
  | nil => rfl
  | append_singleton front m ih =>
    obtain ⟨hfront, -, hlast⟩ := List.pairwise_append.mp h
    rw [sortMembers_append_singleton, ih hfront]
    exact insertMember_of_last fun m' hm' => hlast m' hm' m (List.mem_singleton_self m)

end Json

namespace Value

theorem ofJsonItems_eq_map (items : List Json) : ofJsonItems items = items.map ofJson := by
  induction items with
  | nil => rfl
  | cons j rest ih => rw [ofJsonItems, ih, List.map_cons]

theorem ofJsonMembers_eq_map (members : List (String × Json)) :
    ofJsonMembers members = members.map fun m => (.str m.1, ofJson m.2) := by
  induction members with
  | nil => rfl
  | cons m rest ih => rw [ofJsonMembers, ih, List.map_cons]

theorem keys_ofJsonMembers (members : List (String × Json)) :
    Entries.keys (ofJsonMembers members) = members.map fun m => .str m.1 := by
  rw [ofJsonMembers_eq_map, Entries.keys, List.map_map]
  rfl

theorem compare_str (s s' : String) : compare (.str s) (.str s') = Ord.compare s s' := by
  rw [compare]

theorem ascending_names_iff {members : List (String × Json)} :
    Ascending (members.map fun m => .str m.1) ↔ Json.Named members := by
  rw [Ascending, List.pairwise_map]
  simp only [compare_str]
  rfl

/-- The value of an object is the mapping of the values of its members, in whichever order of the
two this is done. -/
theorem ofJsonMembers_insertMember (name : String) (j : Json) (members : List (String × Json)) :
    ofJsonMembers (Json.insertMember name j members) =
      Entries.insert (.str name) (ofJson j) (ofJsonMembers members) := by
  induction members with
  | nil => rfl
  | cons m rest ih =>
    rw [ofJsonMembers, Entries.insert, compare_str, Json.insertMember]
    cases Ord.compare name m.1 with
    | lt => rfl
    | eq => rfl
    | gt => exact congrArg ((.str m.1, ofJson m.2) :: ·) ih

theorem ofJsonMembers_sortMembers (members : List (String × Json)) :
    ofJsonMembers (Json.sortMembers members) = Entries.ofList (ofJsonMembers members) := by
  induction members using List.reverseRecOn with
  | nil => rfl
  | append_singleton front m ih =>
    rw [Json.sortMembers_append_singleton, ofJsonMembers_insertMember, ih,
      ofJsonMembers_eq_map (front ++ [m]), List.map_append, ← ofJsonMembers_eq_map]
    exact (Entries.insertAll_append (ofJsonMembers front) [(.str m.1, ofJson m.2)] []).symm

/-- Sorting the members of an object first changes nothing in its value. -/
theorem ofJson_sortMembers (members : List (String × Json)) :
    ofJson (.object (Json.sortMembers members)) = ofJson (.object members) := by
  rw [ofJson, ofJson, ofEntries, ofEntries, ofJsonMembers_sortMembers,
    Entries.ofList_of_ascending (Entries.ascending_ofList _)]

end Value

end Conformance
