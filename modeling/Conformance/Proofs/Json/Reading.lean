import Conformance.Proofs.Json.Members

/-! # JSON read at once and JSON read through a tree

A reader that reports items one after the other and a tree that is turned into a value sort numbers
and repeated names by different means. Document by document the value is the same.
-/

namespace Conformance.Value

theorem ofUnsigned_eq (n : UInt64) : ofUnsigned n = ofJsonNumber (.unsigned n) := by
  by_cases hn : n ≤ 0x7FFFFFFFFFFFFFFF
  · simp [ofUnsigned, ofJsonNumber, Json.Number.toInteger?, hn]
  · simp [ofUnsigned, ofJsonNumber, Json.Number.toInteger?, Json.Number.toFloat, hn]

theorem ofDatum_number (n : Json.Number) : ofDatum n.datum = .ok (ofJsonNumber n) := by
  cases n with
  | unsigned n => exact congrArg Except.ok (ofUnsigned_eq n)
  | negative i => rfl
  | float x => rfl

theorem ofJson_tree_object (members : List (String × Json)) :
    ofJson (Json.tree (.object members)) =
      ofEntries (ofJsonMembers (Json.treeMembers members)) := by
  rw [Json.tree, ofJson_sortMembers, ofJson]

mutual

theorem ofDatum_datum : (j : Json) → ofDatum j.datum = .ok (ofJson j.tree)
  | .null => rfl
  | .bool _ => rfl
  | .number n => ofDatum_number n
  | .string _ => rfl
  | .array items => by
    have hitems := ofDatumItems_itemData items
    rw [Json.datum, ofDatum, hitems]
    rfl
  | .object members => by
    -- The reader hands over repeated names as they are written; the tree has dropped them.
    have hmembers := ofDatumEntries_memberData members
    rw [Json.datum, ofDatum, hmembers, ofJson_tree_object]
    rfl

theorem ofDatumItems_itemData : (items : List Json) →
    ofDatumItems (Json.itemData items) = .ok (ofJsonItems (Json.treeItems items))
  | [] => rfl
  | j :: rest => by
    have hj := ofDatum_datum j
    have hrest := ofDatumItems_itemData rest
    rw [Json.itemData, ofDatumItems, hj, hrest]
    rfl

theorem ofDatumEntries_memberData : (members : List (String × Json)) →
    ofDatumEntries (Json.memberData members) = .ok (ofJsonMembers (Json.treeMembers members))
  | [] => rfl
  | (name, j) :: rest => by
    have hj := ofDatum_datum j
    have hrest := ofDatumEntries_memberData rest
    rw [Json.memberData, ofDatumEntries, hj, hrest]
    rfl

end

/-- Of a text that is JSON, the reader makes the value of its tree; of no other text does it make
anything. -/
theorem readJson?_eq_ofJson_tree (text : String) :
    readJson? text = (Json.read? text).map fun j => .ok (ofJson j.tree) := by
  rw [readJson?]
  refine congrArg (Option.map · (Json.read? text)) (funext fun j => ?_)
  exact ofDatum_datum j

/-- The last of two members counts, 2⁶⁴ is read as a floating-point number, and so is -0. -/
example : readJson? "\x7b\"a\": null, \"b\": [-0], \"a\": 18446744073709551616\x7d" =
    some (.ok (.map [(.str "a", .float ⟨0x43F0000000000000⟩),
      (.str "b", .list [.float ⟨0x8000000000000000⟩])])) := by
  decide +kernel

end Conformance.Value
