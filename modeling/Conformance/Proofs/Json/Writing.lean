import Conformance.Proofs.Json.Tree

/-! # JSON written at once and JSON written from a tree

Keys that are no texts, and numbers that are not finite, can be written at once although there is no
tree of them. Where there is a tree, both ways give one text.
-/

namespace Conformance.Value

theorem chars_jsonInteger (i : Int64) : (jsonInteger i).chars = Json.intChars i := by
  by_cases h : i < 0
  · rw [jsonInteger, if_pos h, Json.Number.chars]
  · obtain ⟨n, -, hn, heq⟩ := exists_unsigned_of_nonneg h
    rw [heq, Json.Number.chars, Json.intChars, ← hn]
    rfl

section Parts

variable {items : List Value} {js : List Json} {entries : Entries} {members : List (String × Json)}

theorem moreJsonItemChars?_eq (h : List.Forall₂ (fun v j => v.jsonChars? = some j.chars) items js) :
    moreJsonItemChars? items = some (Json.moreItemChars js) := by
  induction h with
  | nil => rfl
  | cons hv _ ih =>
    rw [moreJsonItemChars?, hv, ih]
    rfl

theorem jsonItemChars?_eq (h : List.Forall₂ (fun v j => v.jsonChars? = some j.chars) items js) :
    jsonItemChars? items = some (Json.itemChars js) := by
  cases h with
  | nil => rfl
  | cons hv hrest =>
    rw [jsonItemChars?, hv, moreJsonItemChars?_eq hrest]
    rfl

theorem moreJsonEntryChars?_eq
    (h : List.Forall₂ (fun e m => e.1 = .str m.1 ∧ e.2.jsonChars? = some m.2.chars)
      entries members) :
    moreJsonEntryChars? entries = some (Json.moreMemberChars members) := by
  induction h with
  | nil => rfl
  | @cons e m _ _ hm _ ih =>
    obtain ⟨hname, hv⟩ := hm
    rw [moreJsonEntryChars?, hname, hv, ih]
    rfl

theorem jsonEntryChars?_eq
    (h : List.Forall₂ (fun e m => e.1 = .str m.1 ∧ e.2.jsonChars? = some m.2.chars)
      entries members) :
    jsonEntryChars? entries = some (Json.memberChars members) := by
  cases h with
  | nil => rfl
  | @cons e m _ _ hm hrest =>
    obtain ⟨hname, hv⟩ := hm
    rw [jsonEntryChars?, hname, hv, moreJsonEntryChars?_eq hrest]
    rfl

end Parts

theorem jsonChars?_of_elements {v : Value} {items : List Value} (h : v.elements? = some items) :
    v.jsonChars? = (jsonItemChars? items).map fun cs => '[' :: cs ++ [']'] := by
  cases v <;> cases h <;> rfl

theorem jsonChars?_of_toJson {v : Value} {j : Json} (sorted : v.Sorted) (h : v.toJson = .ok j) :
    v.jsonChars? = some j.chars := by
  refine toJson_induction (R := fun v j => v.jsonChars? = some j.chars) rfl (fun _ => rfl) ?int
    (fun _ _ => rfl) (fun _ => rfl) ?elements ?map sorted h
  case int =>
    intro i
    rw [jsonChars?, Json.chars, chars_jsonInteger]
  case elements =>
    intro v items js hv hall
    rw [jsonChars?_of_elements hv, jsonItemChars?_eq hall]
    rfl
  case map =>
    intro m members _ _ hall
    rw [jsonChars?, jsonEntryChars?_eq hall]
    rfl

/-- A value that has a tree is written as its tree is. -/
theorem jsonText?_of_toJson {v : Value} {j : Json} (sorted : v.Sorted) (h : v.toJson = .ok j) :
    v.jsonText? = some j.write := by
  rw [jsonText?, jsonChars?_of_toJson sorted h]
  rfl

theorem sorted_trip : trip.Sorted := by
  have hstr (s : String) : (str s).Sorted := sorted_of_content trivial rfl
  have hids : (set [.int (-2), .int 1]).Sorted := by
    refine sorted_set_iff.mpr ⟨by decide, fun v hv => ?_⟩
    rcases List.mem_pair.mp hv with rfl | rfl <;> exact sorted_of_content trivial rfl
  have hpair : (tuple [.bool true, .float Binary64.zero.neg]).Sorted := by
    refine sorted_tuple_iff.mpr fun v hv => ?_
    rcases List.mem_pair.mp hv with rfl | rfl <;> exact sorted_of_content trivial rfl
  refine sorted_map_iff.mpr ⟨by decide, fun e he => ?_⟩
  rcases List.mem_pair.mp he with rfl | rfl
  · exact ⟨hstr "ids", hids⟩
  · exact ⟨hstr "pair", hpair⟩

theorem jsonText?_of_toJson_trip :
    trip.jsonText? = some "\x7b\"ids\":[-2,1],\"pair\":[true,-0.0]\x7d" := by
  have htree : trip.toJson = .ok tripTree := rfl
  have htext : tripTree.write = "\x7b\"ids\":[-2,1],\"pair\":[true,-0.0]\x7d" := by decide
  rw [jsonText?_of_toJson sorted_trip htree, htext]

end Conformance.Value
