import Conformance.Proofs.Json.Reading
import Conformance.Proofs.Json.Scanning
import Conformance.Proofs.Json.Writing

/-! # Written text reads back as deep as the reader goes

The reader keeps a stack of what is open and refuses to let it grow beyond a limit, so of what is
written it reads back just what is not nested deeper than that. Nothing else is lost but the
difference between lists, tuples and sets.
-/

namespace Conformance

namespace Json

/-! ## Depth -/

mutual

def depth : Json → Nat
  | .array items => itemDepth items + 1
  | .object members => memberDepth members + 1
  | _ => 0

def itemDepth : List Json → Nat
  | [] => 0
  | j :: rest => max (depth j) (itemDepth rest)

def memberDepth : List (String × Json) → Nat
  | [] => 0
  | (_, j) :: rest => max (depth j) (memberDepth rest)

end

namespace State

/-- The state, if no more than that many arrays and objects stand inside one another. -/
def within (depth : Nat) (s : State) : Option State := if depth ≤ depthLimit then some s else none

theorem within_of_le {depth : Nat} (h : depth ≤ depthLimit) (s : State) :
    within depth s = some s :=
  if_pos h

theorem within_max (depth depth' : Nat) (s : State) :
    within (max depth depth') s = if depth ≤ depthLimit then within depth' s else none := by
  by_cases h : depth ≤ depthLimit
  · rw [if_pos h, within, within]
    refine if_congr ?_ rfl rfl
    omega
  · have hmax : ¬ max depth depth' ≤ depthLimit := by omega
    rw [if_neg h, within, if_neg hmax]

/-- Until the array ends, its first item is read as any other. -/
theorem step_firstItem (stack : List Frame) {t : Token} (h : t ≠ .closeArray) :
    step ⟨stack, .firstItem⟩ t = step ⟨.array [] :: stack, .value⟩ t := by
  cases t with
  | closeArray => exact absurd rfl h
  | _ => rfl

end State

open State (complete within within_of_le within_max)

/-- No tree begins with the end of an array. -/
theorem tokens_eq_cons (j : Json) : ∃ t rest, j.tokens = t :: rest ∧ t ≠ .closeArray := by
  cases j <;> exact ⟨_, _, rfl, nofun⟩

/-! ## Tokens of a tree -/

/-- The tokens of the tree make the tree wherever a value is due, if it is not too deep there. -/
def Parses (j : Json) : Prop :=
  ∀ stack : List Frame, stack.length ≤ depthLimit →
    j.tokens.foldlM State.step ⟨stack, .value⟩ = within (stack.length + j.depth) (complete stack j)

section Parts

variable {stack : List Frame} (room : stack.length < depthLimit)
include room

/-- A part of what is open, then what follows it. -/
theorem Parses.foldlM_append {j : Json} (hj : j.Parses) (frame : Frame) {ts : List Token}
    {depth : Nat} {s : State}
    (h : ts.foldlM State.step (complete (frame :: stack) j) = within (stack.length + 1 + depth) s) :
    (j.tokens ++ ts).foldlM State.step ⟨frame :: stack, .value⟩ =
      within (stack.length + 1 + max j.depth depth) s := by
  have hfirst : j.tokens.foldlM State.step ⟨frame :: stack, .value⟩ =
      within (stack.length + 1 + j.depth) (complete (frame :: stack) j) := hj (frame :: stack) room
  have hmax : stack.length + 1 + max j.depth depth =
      max (stack.length + 1 + j.depth) (stack.length + 1 + depth) := by omega
  rw [List.foldlM_append, hfirst, hmax, within_max]
  by_cases hdeep : stack.length + 1 + j.depth ≤ depthLimit
  · rw [within_of_le hdeep, if_pos hdeep]
    exact h
  · rw [within, if_neg hdeep, if_neg hdeep]
    rfl

theorem foldlM_moreItemTokens {items : List Json} (h : ∀ j ∈ items, j.Parses) (read : List Json) :
    (moreItemTokens items ++ [Token.closeArray]).foldlM State.step ⟨stack, .afterItem read⟩ =
      within (stack.length + 1 + itemDepth items)
        (complete stack (.array (read.reverse ++ items))) := by
  induction items generalizing read with
  | nil =>
    rw [within_of_le (by rw [itemDepth]; omega), List.append_nil]
    rfl
  | cons j rest ih =>
    obtain ⟨hj, hrest⟩ := List.forall_mem_cons.mp h
    have hafter := ih hrest (j :: read)
    rw [List.reverse_cons, List.append_assoc, List.singleton_append] at hafter
    have hitem := hj.foldlM_append room (.array read) hafter
    rw [moreItemTokens, List.cons_append, List.cons_append, List.append_assoc, List.foldlM_cons]
    exact hitem

theorem foldlM_itemTokens {items : List Json} (h : ∀ j ∈ items, j.Parses) :
    (itemTokens items ++ [Token.closeArray]).foldlM State.step ⟨stack, .firstItem⟩ =
      within (stack.length + 1 + itemDepth items) (complete stack (.array items)) := by
  cases items with
  | nil =>
    rw [within_of_le (by rw [itemDepth]; omega)]
    rfl
  | cons j rest =>
    obtain ⟨hj, hrest⟩ := List.forall_mem_cons.mp h
    have hitem := hj.foldlM_append room (.array []) (foldlM_moreItemTokens room hrest [j])
    obtain ⟨t, more, htokens, ht⟩ := tokens_eq_cons j
    rw [itemTokens, List.append_assoc, htokens, List.cons_append, List.foldlM_cons,
      State.step_firstItem stack ht, ← List.foldlM_cons, ← List.cons_append, ← htokens]
    exact hitem

theorem foldlM_moreMemberTokens {members : List (String × Json)}
    (h : ∀ m ∈ members, m.2.Parses) (read : List (String × Json)) :
    (moreMemberTokens members ++ [Token.closeObject]).foldlM State.step ⟨stack, .afterMember read⟩ =
      within (stack.length + 1 + memberDepth members)
        (complete stack (.object (read.reverse ++ members))) := by
  induction members generalizing read with
  | nil =>
    rw [within_of_le (by rw [memberDepth]; omega), List.append_nil]
    rfl
  | cons m rest ih =>
    obtain ⟨name, j⟩ := m
    obtain ⟨hj, hrest⟩ := List.forall_mem_cons.mp h
    have hafter := ih hrest ((name, j) :: read)
    rw [List.reverse_cons, List.append_assoc, List.singleton_append] at hafter
    have hmember := hj.foldlM_append room (.object read name) hafter
    rw [moreMemberTokens, List.append_assoc, List.append_assoc]
    exact hmember

theorem foldlM_memberTokens {members : List (String × Json)} (h : ∀ m ∈ members, m.2.Parses) :
    (memberTokens members ++ [Token.closeObject]).foldlM State.step ⟨stack, .firstName⟩ =
      within (stack.length + 1 + memberDepth members) (complete stack (.object members)) := by
  cases members with
  | nil =>
    rw [within_of_le (by rw [memberDepth]; omega)]
    rfl
  | cons m rest =>
    obtain ⟨name, j⟩ := m
    obtain ⟨hj, hrest⟩ := List.forall_mem_cons.mp h
    have hmember := hj.foldlM_append room (.object [] name)
      (foldlM_moreMemberTokens room hrest [(name, j)])
    rw [memberTokens, List.append_assoc, List.append_assoc]
    exact hmember

end Parts

theorem parses (j : Json) : j.Parses := by
  induction j using parts_induction with
  | h j ih =>
    intro stack hstack
    -- An array or object is opened first, which needs room for one more on the stack.
    have hopen {place : Place} {ts : List Token} {depth : Nat} {s : State}
        (h : stack.length < depthLimit →
          ts.foldlM State.step ⟨stack, place⟩ = within (stack.length + 1 + depth) s) :
        ((State.open? stack place).bind fun s' => ts.foldlM State.step s') =
          within (stack.length + (depth + 1)) s := by
      by_cases hroom : stack.length < depthLimit
      · rw [State.open?, if_pos hroom, Option.bind_some, h hroom, Nat.add_right_comm]
        rfl
      · rw [State.open?, if_neg hroom, Option.bind_none, within, if_neg (by omega)]
    cases j with
    | null | bool _ | number _ | string _ => exact (within_of_le hstack _).symm
    | array items => exact hopen fun hroom => foldlM_itemTokens hroom ih
    | object members =>
      exact hopen fun hroom => foldlM_memberTokens hroom (List.forall_mem_map.mp ih)

theorem ofTokens?_tokens (j : Json) :
    ofTokens? j.tokens = if j.depth ≤ depthLimit then some j else none := by
  have hparse := parses j [] (Nat.zero_le _)
  rw [List.length_nil, Nat.zero_add] at hparse
  rw [ofTokens?, State.initial, hparse]
  by_cases hdepth : j.depth ≤ depthLimit
  · rw [within_of_le hdepth, if_pos hdepth]
    rfl
  · rw [within, if_neg hdepth, if_neg hdepth]
    rfl

theorem read?_write {j : Json} (h : j.OnlyIntegers) :
    read? j.write = if j.depth ≤ depthLimit then some j else none := by
  rw [read?, write, String.toList_ofList, read?_chars h, Option.bind_some, ofTokens?_tokens]

end Json

namespace Value

/-! ## Values without floats -/

mutual

/-- Collections inside one another; keys do not count. -/
def depth : Value → Nat
  | .list items => itemDepth items + 1
  | .tuple items => itemDepth items + 1
  | .set members => itemDepth members + 1
  | .map entries => entryDepth entries + 1
  | _ => 0

def itemDepth : List Value → Nat
  | [] => 0
  | v :: rest => max (depth v) (itemDepth rest)

def entryDepth : Entries → Nat
  | [] => 0
  | (_, v) :: rest => max (depth v) (entryDepth rest)

end

theorem depth_of_elements {v : Value} {items : List Value} (h : v.elements? = some items) :
    v.depth = itemDepth items + 1 := by
  cases v <;> cases h <;> rfl

theorem parts_of_elements {v : Value} {items : List Value} (h : v.elements? = some items) :
    v.parts = items := by
  cases v <;> cases h <;> rfl

theorem itemDepth_eq {items : List Value} {js : List Json}
    (h : List.Forall₂ (fun v j => j.depth = v.depth) items js) :
    Json.itemDepth js = itemDepth items := by
  induction h with
  | nil => rfl
  | cons hv _ ih => rw [Json.itemDepth, itemDepth, hv, ih]

theorem entryDepth_eq {entries : Entries} {members : List (String × Json)}
    (h : List.Forall₂ (fun e m => e.1 = .str m.1 ∧ m.2.depth = e.2.depth) entries members) :
    Json.memberDepth members = entryDepth entries := by
  induction h with
  | nil => rfl
  | cons he _ ih => rw [Json.memberDepth, entryDepth, he.2, ih]

theorem depth_of_toJson {v : Value} {j : Json} (sorted : v.Sorted) (h : v.toJson = .ok j) :
    j.depth = v.depth := by
  refine toJson_induction (R := fun v j => j.depth = v.depth) rfl (fun _ => rfl) (fun _ => rfl)
    (fun _ _ => rfl) (fun _ => rfl) ?elements ?map sorted h
  case elements =>
    intro v items js hv hall
    rw [Json.depth, itemDepth_eq hall, depth_of_elements hv]
  case map =>
    intro m members _ _ hall
    rw [Json.depth, depth, entryDepth_eq hall]

def Floatless (v : Value) : Prop := ∀ x, ¬ v.Reaches (.float x)

theorem floatless_iff {v : Value} :
    v.Floatless ↔ (∀ x, v ≠ .float x) ∧ ∀ w ∈ v.parts, w.Floatless := by
  constructor
  · intro h
    constructor
    · rintro x rfl
      exact h x .refl
    · exact fun w hw x hx => h x (.head hw hx)
  · rintro ⟨hself, hparts⟩ x hx
    rcases hx.cases_head with heq | ⟨w, hw, hwx⟩
    · exact hself x heq
    · exact hparts w hw x hwx

theorem whole_jsonInteger (i : Int64) : (Json.number (jsonInteger i)).Whole := by
  by_cases h : i < 0
  · rw [jsonInteger, if_pos h]
    exact h
  · rw [jsonInteger, if_neg h]
    trivial

theorem onlyIntegers_of_toJson {v : Value} {j : Json} (sorted : v.Sorted) (h : v.toJson = .ok j)
    (floatless : v.Floatless) : j.OnlyIntegers := by
  have hleaf {k : Json} (hwhole : k.Whole) (hparts : k.parts = []) : k.OnlyIntegers :=
    Json.onlyIntegers_iff.mpr ⟨hwhole, hparts ▸ List.forall_mem_nil _⟩
  refine toJson_induction (R := fun v j => v.Floatless → j.OnlyIntegers)
    (fun _ => hleaf trivial rfl) (fun _ _ => hleaf trivial rfl)
    (fun i _ => hleaf (whole_jsonInteger i) rfl) ?float (fun _ _ => hleaf trivial rfl)
    ?elements ?map sorted h floatless
  case float =>
    intro x _ hx
    exact absurd .refl (hx x)
  case elements =>
    intro v items js hv hall hfloatless
    have hparts : ∀ w ∈ items, w.Floatless := fun w hw =>
      (floatless_iff.mp hfloatless).2 w (parts_of_elements hv ▸ hw)
    refine Json.onlyIntegers_iff.mpr ⟨trivial, ?_⟩
    exact Result.forall_mem_of_forall₂ hall fun w hw _ hj => hj (hparts w hw)
  case map =>
    intro m members _ _ hall hfloatless
    refine Json.onlyIntegers_iff.mpr ⟨trivial, List.forall_mem_map.mpr ?_⟩
    exact Result.forall_mem_of_forall₂ hall fun e he _ hm =>
      hm.2 ((floatless_iff.mp hfloatless).2 e.2 (List.mem_map_of_mem he))

/-! ## The value of a tree -/

theorem ofJsonItems_treeItems {items : List Json} (h : ∀ j ∈ items, ofJson j.tree = ofJson j) :
    ofJsonItems (Json.treeItems items) = ofJsonItems items := by
  induction items with
  | nil => rfl
  | cons j rest ih =>
    obtain ⟨hj, hrest⟩ := List.forall_mem_cons.mp h
    rw [Json.treeItems, ofJsonItems, ofJsonItems, hj, ih hrest]

theorem ofJsonMembers_treeMembers {members : List (String × Json)}
    (h : ∀ m ∈ members, ofJson m.2.tree = ofJson m.2) :
    ofJsonMembers (Json.treeMembers members) = ofJsonMembers members := by
  induction members with
  | nil => rfl
  | cons m rest ih =>
    obtain ⟨hm, hrest⟩ := List.forall_mem_cons.mp h
    rw [Json.treeMembers, ofJsonMembers, ofJsonMembers, hm, ih hrest]

theorem ofJson_tree (j : Json) : ofJson j.tree = ofJson j := by
  induction j using Json.parts_induction with
  | h j ih =>
    cases j with
    | array items =>
      have hitems : ∀ j ∈ items, ofJson j.tree = ofJson j := ih
      rw [Json.tree, ofJson, ofJson, ofJsonItems_treeItems hitems]
    | object members =>
      rw [ofJson_tree_object, ofJson, ofJsonMembers_treeMembers (List.forall_mem_map.mp ih)]
    | _ => rfl

theorem readJson?_write {j : Json} (h : j.OnlyIntegers) :
    readJson? j.write = if j.depth ≤ Json.depthLimit then some (.ok (ofJson j)) else none := by
  rw [readJson?, Json.read?_write h]
  by_cases hdepth : j.depth ≤ Json.depthLimit
  · rw [if_pos hdepth, if_pos hdepth, Option.map_some, ofDatum_datum, ofJson_tree]
  · rw [if_neg hdepth, if_neg hdepth, Option.map_none]

/-- A value without floats that has a tree is written, and the text is read back if the value is not
too deep. -/
theorem exists_text_of_toJson {v : Value} {j : Json} (sorted : v.Sorted) (h : v.toJson = .ok j)
    (floatless : v.Floatless) :
    ∃ text, v.jsonText? = some text ∧
      readJson? text = if v.depth ≤ Json.depthLimit then some (.ok v.listed) else none := by
  refine ⟨j.write, ?_, ?_⟩
  · rw [jsonText?, jsonChars?_of_toJson sorted h]
    rfl
  · rw [readJson?_write (onlyIntegers_of_toJson sorted h floatless), depth_of_toJson sorted h,
      ofJson_of_toJson sorted h]

/-- Values without floats and with texts for keys are written, and what is written reads back with
lists for tuples and sets, unless more is nested than the reader follows. -/
theorem written_text_reads_back (v : Value) (sorted : v.Sorted) (floatless : v.Floatless)
    (named : ∀ m, v.Reaches (.map m) → ∀ k ∈ Entries.keys m, ∃ s, k = .str s) :
    ∃ text, v.jsonText? = some text ∧
      (v.depth ≤ Json.depthLimit →
        readJson? text = some (.ok v.listed) ∧
        ((∀ items, ¬ v.Reaches (.tuple items)) → (∀ members, ¬ v.Reaches (.set members)) →
          readJson? text = some (.ok v))) ∧
      (Json.depthLimit < v.depth → readJson? text = none) := by
  have hfits : ∀ w, v.Reaches w → w.Fits :=
    reaches_fits_iff.mpr ⟨fun x hx => absurd hx (floatless x), named⟩
  obtain ⟨j, hj⟩ := exists_toJson_iff.mpr hfits
  obtain ⟨text, htext, hread⟩ := exists_text_of_toJson sorted hj floatless
  refine ⟨text, htext, fun hdepth => ?_, fun hdepth => ?_⟩
  · rw [if_pos hdepth] at hread
    refine ⟨hread, fun htuple hset => ?_⟩
    rw [hread, listed_eq_self htuple hset]
  · rw [hread, if_neg (by omega)]

def letter : Value :=
  .map [(.str "to", .set [.str "Ann \"A\""]), (.str "y\n", .tuple [.int (-2), .str "\\\x01"])]

def letterText : String :=
  "\x7b\"to\":[\"Ann \\\"A\\\"\"],\"y\\n\":[-2,\"\\\\\\u0001\"]\x7d"

theorem sorted_letter : letter.Sorted := by
  have hstr (s : String) : (str s).Sorted := sorted_of_content trivial rfl
  have hset : (set [.str "Ann \"A\""]).Sorted :=
    sorted_set_iff.mpr ⟨by decide, List.forall_mem_singleton.mpr (hstr _)⟩
  have htuple : (tuple [.int (-2), .str "\\\x01"]).Sorted := by
    refine sorted_tuple_iff.mpr fun v hv => ?_
    rcases List.mem_pair.mp hv with rfl | rfl <;> exact sorted_of_content trivial rfl
  refine sorted_map_iff.mpr ⟨by decide, fun e he => ?_⟩
  rcases List.mem_pair.mp he with rfl | rfl
  · exact ⟨hstr "to", hset⟩
  · exact ⟨hstr "y\n", htuple⟩

theorem floatless_letter : letter.Floatless := by
  have hleaf {v : Value} (hself : ∀ x, v ≠ .float x) (hparts : v.parts = []) : v.Floatless :=
    floatless_iff.mpr ⟨hself, hparts ▸ List.forall_mem_nil _⟩
  refine floatless_iff.mpr ⟨nofun, fun v hv => ?_⟩
  rcases List.mem_pair.mp hv with rfl | rfl
  · exact floatless_iff.mpr ⟨nofun, List.forall_mem_singleton.mpr (hleaf nofun rfl)⟩
  · refine floatless_iff.mpr ⟨nofun, fun w hw => ?_⟩
    rcases List.mem_pair.mp hw with rfl | rfl <;> exact hleaf nofun rfl

theorem written_text_reads_back_letter :
    (letter.Sorted ∧ letter.Floatless ∧
      ∀ m, letter.Reaches (.map m) → ∀ k ∈ Entries.keys m, ∃ s, k = .str s) ∧
    readJson? letterText = some (.ok letter.listed) ∧
    letter.listed ≠ letter := by
  have hfits : ∀ w, letter.Reaches w → w.Fits := exists_toJson_iff.mp ⟨_, rfl⟩
  have hnamed := (reaches_fits_iff.mp hfits).2
  have hletter : letter.jsonText? = some letterText := by decide
  obtain ⟨text, htext, hback, -⟩ :=
    written_text_reads_back letter sorted_letter floatless_letter hnamed
  obtain rfl := Option.some.inj (hletter.symm.trans htext)
  exact ⟨⟨sorted_letter, floatless_letter, hnamed⟩, (hback (by decide)).1, by decide⟩

def nest : Nat → Value
  | 0 => .list []
  | n + 1 => .list [nest n]

theorem depth_nest (n : Nat) : (nest n).depth = n + 1 := by
  induction n with
  | zero => rfl
  | succ n ih =>
    rw [nest, depth, itemDepth, itemDepth, ih]
    omega

theorem sorted_nest (n : Nat) : (nest n).Sorted := by
  induction n with
  | zero => exact sorted_list_iff.mpr (List.forall_mem_nil _)
  | succ n ih => exact sorted_list_iff.mpr (List.forall_mem_singleton.mpr ih)

theorem floatless_nest (n : Nat) : (nest n).Floatless := by
  induction n with
  | zero => exact floatless_iff.mpr ⟨nofun, List.forall_mem_nil _⟩
  | succ n ih => exact floatless_iff.mpr ⟨nofun, List.forall_mem_singleton.mpr ih⟩

theorem exists_toJson_nest (n : Nat) : ∃ j, (nest n).toJson = .ok j := by
  induction n with
  | zero => exact ⟨_, rfl⟩
  | succ n ih => exact exists_toJson_iff_parts.mpr ⟨trivial, List.forall_mem_singleton.mpr ih⟩

/-- Of 128 lists inside one another the text is written and cannot be read. -/
theorem written_text_refused :
    (nest 127).Sorted ∧ (nest 127).Floatless ∧
    (∀ m, (nest 127).Reaches (.map m) → ∀ k ∈ Entries.keys m, ∃ s, k = .str s) ∧
    ∃ text, (nest 127).jsonText? = some text ∧
      readJson? text ≠ some (.ok (nest 127).listed) := by
  obtain ⟨j, hj⟩ := exists_toJson_nest 127
  have hnamed := (reaches_fits_iff.mp (exists_toJson_iff.mp ⟨j, hj⟩)).2
  obtain ⟨text, htext, hread⟩ := exists_text_of_toJson (sorted_nest 127) hj (floatless_nest 127)
  refine ⟨sorted_nest 127, floatless_nest 127, hnamed, text, htext, ?_⟩
  rw [hread, depth_nest, if_neg (by decide)]
  nofun

end Value

end Conformance
