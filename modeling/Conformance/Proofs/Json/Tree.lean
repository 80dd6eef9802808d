import Conformance.Proofs.Json.Members

/-! # From values to JSON trees and back

A value has a tree unless something in it has none: a number that is not finite, or a mapping with a
key that is no text. The tree keeps everything but the difference between lists, tuples and sets.
-/

namespace Conformance

/-! ## Trees -/

namespace Json

def parts : Json → List Json
  | .array items => items
  | .object members => members.map Prod.snd
  | _ => []

theorem sizeOf_lt_of_mem_parts {j k : Json} (h : k ∈ j.parts) : sizeOf k < sizeOf j := by
  cases j with
  | array items =>
    have hk : sizeOf k < sizeOf items := List.sizeOf_lt_of_mem h
    simp only [array.sizeOf_spec]
    omega
  | object members =>
    obtain ⟨⟨name, k⟩, hm, rfl⟩ := List.mem_map.mp h
    have hpair : sizeOf (name, k) < sizeOf members := List.sizeOf_lt_of_mem hm
    simp only [Prod.mk.sizeOf_spec, object.sizeOf_spec] at hpair ⊢
    omega
  | _ => cases h

@[elab_as_elim]
theorem parts_induction {P : Json → Prop} (h : ∀ j, (∀ k ∈ j.parts, P k) → P j) (j : Json) : P j :=
  h j fun k _ => parts_induction h k
termination_by j
decreasing_by exact sizeOf_lt_of_mem_parts ‹_›

def Reaches : Json → Json → Prop := Relation.ReflTransGen fun j k => k ∈ j.parts

/-- A number has one form only, and it is finite. -/
def Number.Proper : Number → Prop
  | .unsigned _ => True
  | .negative i => i < 0
  | .float x => x.isFinite = true

/-- The tree itself, whatever its parts are, is one that a reader builds. -/
def Sound : Json → Prop
  | .number n => n.Proper
  | .object members => Named members
  | _ => True

/-- Numbers are proper and names ascend, at any depth. -/
def WellFormed (j : Json) : Prop := ∀ k, j.Reaches k → k.Sound

theorem wellFormed_iff {j : Json} : j.WellFormed ↔ j.Sound ∧ ∀ k ∈ j.parts, k.WellFormed :=
  Value.forall_reflTransGen_iff

/-- The tree itself is no integer beyond 64 bits with a sign. -/
def Signed : Json → Prop
  | .number (.unsigned n) => n ≤ 0x7FFFFFFFFFFFFFFF
  | _ => True

def IntegersFit (j : Json) : Prop := ∀ k, j.Reaches k → k.Signed

theorem integersFit_iff {j : Json} : j.IntegersFit ↔ j.Signed ∧ ∀ k ∈ j.parts, k.IntegersFit :=
  Value.forall_reflTransGen_iff

end Json

namespace Value

/-! ## Integers -/

theorem toInt_ofNat_toNat {n : UInt64} (h : n ≤ 0x7FFFFFFFFFFFFFFF) :
    (Int64.ofNat n.toNat).toInt = n.toNat := by
  have hlt : n.toNat < 2 ^ 63 := by
    have hle := UInt64.le_iff_toNat_le.mp h
    exact Nat.lt_of_le_of_lt hle (by decide)
  exact Int64.toInt_ofNat_of_lt hlt

theorem exists_unsigned_of_nonneg {i : Int64} (h : ¬ i < 0) :
    ∃ n : UInt64, n ≤ 0x7FFFFFFFFFFFFFFF ∧ (n.toNat : Int) = i.toInt ∧
      jsonInteger i = .unsigned n := by
  have hnonneg : 0 ≤ i.toInt := by
    rw [Int64.lt_iff_toInt_lt] at h
    exact Int.not_lt.mp h
  have hlt : i.toInt < 2 ^ 63 := Int64.toInt_lt i
  have hn : (UInt64.ofNat i.toInt.toNat).toNat = i.toInt.toNat := by
    rw [UInt64.toNat_ofNat']
    omega
  refine ⟨UInt64.ofNat i.toInt.toNat, ?_, ?_, if_neg h⟩
  · rw [UInt64.le_iff_toNat_le, hn]
    change i.toInt.toNat ≤ 0x7FFFFFFFFFFFFFFF
    omega
  · rw [hn]
    exact Int.toNat_of_nonneg hnonneg

theorem toInteger?_jsonInteger (i : Int64) : (jsonInteger i).toInteger? = some i := by
  by_cases h : i < 0
  · rw [jsonInteger, if_pos h]
    rfl
  · obtain ⟨n, hle, hn, heq⟩ := exists_unsigned_of_nonneg h
    rw [heq, Json.Number.toInteger?, if_pos hle, Option.some.injEq, ← Int64.toInt_inj,
      toInt_ofNat_toNat hle, hn]

theorem jsonInteger_ofNat_toNat {n : UInt64} (h : n ≤ 0x7FFFFFFFFFFFFFFF) :
    jsonInteger (Int64.ofNat n.toNat) = .unsigned n := by
  have hnonneg : ¬ Int64.ofNat n.toNat < 0 := by
    rw [Int64.lt_iff_toInt_lt, toInt_ofNat_toNat h]
    exact Int.not_lt.mpr (Int.natCast_nonneg _)
  rw [jsonInteger, if_neg hnonneg, toInt_ofNat_toNat h, Int.toNat_natCast, UInt64.ofNat_toNat]

theorem toJson_ofJsonNumber {n : Json.Number} (hn : n.Proper) (hfit : (Json.number n).Signed) :
    (ofJsonNumber n).toJson = .ok (.number n) := by
  cases n with
  | unsigned n =>
    have hle : n ≤ 0x7FFFFFFFFFFFFFFF := hfit
    rw [ofJsonNumber, Json.Number.toInteger?, if_pos hle, toJson, jsonInteger_ofNat_toNat hle]
  | negative i => exact congrArg (fun n => Except.ok (Json.number n)) (if_pos hn)
  | float x => exact if_pos hn

/-! ## Parts of a value -/

def parts : Value → List Value
  | .map entries => entries.map Prod.snd
  | v => v.content

theorem mem_content_of_mem_parts {v w : Value} (h : w ∈ v.parts) : w ∈ v.content := by
  cases v with
  | map entries =>
    obtain ⟨e, he, rfl⟩ := List.mem_map.mp h
    exact mem_content_map.mpr ⟨e, he, .inr rfl⟩
  | _ => exact h

/-- The second value is the first or is reached from it without going through a key. -/
def Reaches : Value → Value → Prop := Relation.ReflTransGen fun v w => w ∈ v.parts

/-! ## Which values have a tree -/

/-- The value itself, whatever its parts are, has a place in a tree. -/
def Fits : Value → Prop
  | .float x => x.isFinite = true
  | .map entries => ∀ k ∈ Entries.keys entries, ∃ s, k = .str s
  | _ => True

theorem toJsonItems_ok_iff {items : List Value} {js : List Json} :
    toJsonItems items = .ok js ↔ List.Forall₂ (fun v j => v.toJson = .ok j) items js := by
  induction items generalizing js with
  | nil =>
    rw [List.forall₂_nil_left_iff, toJsonItems, Except.ok.injEq]
    exact eq_comm
  | cons v rest ih =>
    rw [List.forall₂_cons_left_iff, toJsonItems, Result.bind_ok_iff]
    constructor
    · rintro ⟨j, hj, h⟩
      obtain ⟨js', hjs', h⟩ := Result.bind_ok_iff.mp h
      cases h
      exact ⟨j, js', hj, ih.mp hjs', rfl⟩
    · rintro ⟨j, js', hj, hjs', rfl⟩
      exact ⟨j, hj, Result.bind_ok_iff.mpr ⟨js', ih.mpr hjs', rfl⟩⟩

theorem toJsonMembers_ok_iff {entries : List (Value × Value)} {members : List (String × Json)} :
    toJsonMembers entries = .ok members ↔
      List.Forall₂ (fun e m => e.1 = .str m.1 ∧ e.2.toJson = .ok m.2) entries members := by
  induction entries generalizing members with
  | nil =>
    rw [List.forall₂_nil_left_iff, toJsonMembers, Except.ok.injEq]
    exact eq_comm
  | cons e rest ih =>
    obtain ⟨k, v⟩ := e
    rw [List.forall₂_cons_left_iff]
    cases k with
    | str name =>
      rw [toJsonMembers, Result.bind_ok_iff]
      constructor
      · rintro ⟨j, hj, h⟩
        obtain ⟨members', hmembers', h⟩ := Result.bind_ok_iff.mp h
        cases h
        exact ⟨(name, j), members', ⟨rfl, hj⟩, ih.mp hmembers', rfl⟩
      · rintro ⟨⟨name', j⟩, members', ⟨hname, hj⟩, hmembers', rfl⟩
        cases hname
        exact ⟨j, hj, Result.bind_ok_iff.mpr ⟨members', ih.mpr hmembers', rfl⟩⟩
    | _ => simp [toJsonMembers]

theorem exists_toJsonItems_iff {items : List Value} :
    (∃ js, toJsonItems items = .ok js) ↔ ∀ v ∈ items, ∃ j, v.toJson = .ok j := by
  simp only [toJsonItems_ok_iff, Result.exists_forall₂_iff]

theorem exists_toJsonMembers_iff {entries : Entries} :
    (∃ members, toJsonMembers entries = .ok members) ↔
      (∀ k ∈ Entries.keys entries, ∃ s, k = .str s) ∧
      ∀ v ∈ entries.map Prod.snd, ∃ j, v.toJson = .ok j := by
  simp only [toJsonMembers_ok_iff, Result.exists_forall₂_iff, Entries.keys, List.forall_mem_map]
  constructor
  · intro h
    constructor
    · intro e he
      obtain ⟨m, hname, -⟩ := h e he
      exact ⟨m.1, hname⟩
    · intro e he
      obtain ⟨m, -, hj⟩ := h e he
      exact ⟨m.2, hj⟩
  · rintro ⟨hkeys, hvalues⟩ e he
    obtain ⟨name, hname⟩ := hkeys e he
    obtain ⟨j, hj⟩ := hvalues e he
    exact ⟨(name, j), hname, hj⟩

theorem exists_toJson_iff_parts {v : Value} :
    (∃ j, v.toJson = .ok j) ↔ v.Fits ∧ ∀ w ∈ v.parts, ∃ j, w.toJson = .ok j := by
  cases v with
  | null | bool _ | int _ | str _ =>
    exact ⟨fun _ => ⟨trivial, List.forall_mem_nil _⟩, fun _ => ⟨_, rfl⟩⟩
  | float x =>
    constructor
    · rintro ⟨j, hj⟩
      have hx : x.isFinite = true := by
        by_contra hx
        rw [toJson, if_neg hx] at hj
        cases hj
      exact ⟨hx, List.forall_mem_nil _⟩
    · rintro ⟨hx, -⟩
      exact ⟨_, if_pos hx⟩
  | list items | tuple items | set items =>
    rw [toJson, Result.exists_map_ok_iff, exists_toJsonItems_iff]
    exact (and_iff_right trivial).symm
  | map entries =>
    rw [toJson, Result.exists_map_ok_iff]
    exact exists_toJsonMembers_iff

theorem exists_toJson_iff {v : Value} :
    (∃ j, v.toJson = .ok j) ↔ ∀ w, v.Reaches w → w.Fits := by
  induction v using content_induction with
  | h v ih =>
    rw [exists_toJson_iff_parts, Reaches, forall_reflTransGen_iff]
    -- What holds of the value itself is the same on both sides; the induction is for its parts.
    refine and_congr_right fun _ => forall₂_congr fun w hw => ?_
    exact ih w (mem_content_of_mem_parts hw)

theorem reaches_fits_iff {v : Value} :
    (∀ w, v.Reaches w → w.Fits) ↔
      (∀ x, v.Reaches (.float x) → x.isFinite = true) ∧
      ∀ m, v.Reaches (.map m) → ∀ k ∈ Entries.keys m, ∃ s, k = .str s := by
  constructor
  · intro h
    exact ⟨fun x hx => h _ hx, fun m hm => h _ hm⟩
  · rintro ⟨hfloat, hmap⟩ w hw
    cases w with
    | float x => exact hfloat x hw
    | map m => exact hmap m hw
    | _ => trivial

/-! ## Trees of sorted values -/

/-- The members come in order from a mapping in order, so they stay where they are. -/
theorem exists_object_of_toJson {m : Entries} {j : Json} (hm : Ascending (Entries.keys m))
    (h : (map m).toJson = .ok j) :
    ∃ members, toJsonMembers m = .ok members ∧ Json.Named members ∧ j = .object members := by
  obtain ⟨members, hmembers, rfl⟩ := Result.map_ok_iff.mp h
  have hall := toJsonMembers_ok_iff.mp hmembers
  have hkeys : Entries.keys m = members.map fun m => .str m.1 :=
    Result.map_eq_map_iff.mpr (hall.imp fun e m hem => hem.1)
  have hnamed : Json.Named members := by
    rw [hkeys] at hm
    exact ascending_names_iff.mp hm
  exact ⟨members, hmembers, hnamed, by rw [Json.sortMembers_of_named hnamed]⟩

/-- Value and tree, taken apart together. -/
theorem toJson_induction {R : Value → Json → Prop} (null : R .null .null)
    (bool : ∀ b, R (.bool b) (.bool b)) (int : ∀ i, R (.int i) (.number (jsonInteger i)))
    (float : ∀ x, x.isFinite = true → R (.float x) (.number (.float x)))
    (str : ∀ s, R (.str s) (.string s))
    (elements : ∀ v items js, v.elements? = some items → List.Forall₂ R items js →
      R v (.array js))
    (map : ∀ m members, Ascending (Entries.keys m) → Json.Named members →
      List.Forall₂ (fun e m => e.1 = .str m.1 ∧ R e.2 m.2) m members →
      R (.map m) (.object members))
    {v : Value} {j : Json} (sorted : v.Sorted) (h : v.toJson = .ok j) : R v j := by
  induction v using content_induction generalizing j with
  | h v ih =>
    obtain ⟨hascends, hcontent⟩ := sorted_iff.mp sorted
    have hparts : ∀ w ∈ v.content, ∀ k, w.toJson = .ok k → R w k := fun w hw k hk =>
      ih w hw (hcontent w hw) hk
    cases v with
    | null =>
      cases h
      exact null
    | bool b =>
      cases h
      exact bool b
    | int i =>
      cases h
      exact int i
    | float x =>
      rw [toJson] at h
      split at h <;> cases h
      exact float x ‹_›
    | str s =>
      cases h
      exact str s
    | list items | tuple items | set items =>
      obtain ⟨js, hjs, rfl⟩ := Result.map_ok_iff.mp h
      exact elements _ items js rfl
        (Result.forall₂_imp_of_mem (toJsonItems_ok_iff.mp hjs) hparts)
    | map m =>
      obtain ⟨members, hmembers, hnamed, rfl⟩ := exists_object_of_toJson hascends h
      refine map m members hascends hnamed ?_
      refine Result.forall₂_imp_of_mem (toJsonMembers_ok_iff.mp hmembers) fun e he m' hm' => ?_
      exact ⟨hm'.1, hparts e.2 (mem_content_map.mpr ⟨e, he, .inr rfl⟩) m'.2 hm'.2⟩

/-! ## What comes back -/

mutual

def listed : Value → Value
  | .list items => .list (listedItems items)
  | .tuple items => .list (listedItems items)
  | .set members => .list (listedItems members)
  | .map entries => .map (listedEntries entries)
  | v => v

def listedItems : List Value → List Value
  | [] => []
  | v :: rest => listed v :: listedItems rest

def listedEntries : Entries → Entries
  | [] => []
  | (k, v) :: rest => (k, listed v) :: listedEntries rest

end

theorem listedItems_eq_map (items : List Value) : listedItems items = items.map listed := by
  induction items with
  | nil => rfl
  | cons v rest ih => rw [listedItems, ih, List.map_cons]

theorem listedEntries_eq_map (entries : Entries) :
    listedEntries entries = entries.map fun e => (e.1, e.2.listed) := by
  induction entries with
  | nil => rfl
  | cons e rest ih => rw [listedEntries, ih, List.map_cons]

theorem keys_listedEntries (entries : Entries) :
    Entries.keys (listedEntries entries) = Entries.keys entries := by
  rw [listedEntries_eq_map, Entries.keys, List.map_map]
  rfl

theorem parts_listed (v : Value) : v.listed.parts = v.parts.map listed := by
  cases v with
  | list items | tuple items | set items => exact listedItems_eq_map items
  | map entries =>
    rw [listed, parts, listedEntries_eq_map, parts, List.map_map, List.map_map]
    rfl
  | _ => rfl

theorem exists_of_listed_reaches {v w : Value} (h : v.listed.Reaches w) :
    ∃ u, v.Reaches u ∧ w = u.listed := by
  induction h with
  | refl => exact ⟨v, .refl, rfl⟩
  | tail _ hx ih =>
    obtain ⟨u, hu, rfl⟩ := ih
    rw [parts_listed] at hx
    obtain ⟨x, hmem, rfl⟩ := List.mem_map.mp hx
    exact ⟨x, hu.tail hmem, rfl⟩

/-- Nothing but lists and mappings is left of collections. -/
theorem not_listed_reaches (v : Value) :
    (∀ items, ¬ v.listed.Reaches (.tuple items)) ∧
      ∀ members, ¬ v.listed.Reaches (.set members) := by
  constructor
  · intro items h
    obtain ⟨u, -, hu⟩ := exists_of_listed_reaches h
    cases u <;> cases hu
  · intro members h
    obtain ⟨u, -, hu⟩ := exists_of_listed_reaches h
    cases u <;> cases hu

theorem listed_eq_self {v : Value} (htuple : ∀ items, ¬ v.Reaches (.tuple items))
    (hset : ∀ members, ¬ v.Reaches (.set members)) : v.listed = v := by
  induction v using content_induction with
  | h v ih =>
    have hparts : ∀ w ∈ v.parts, w.listed = w := fun w hw =>
      ih w (mem_content_of_mem_parts hw) (fun items h => htuple items (.head hw h))
        fun members h => hset members (.head hw h)
    cases v with
    | list items =>
      have hitems : items.map listed = items := (List.map_congr_left hparts).trans (List.map_id _)
      rw [listed, listedItems_eq_map, hitems]
    | map entries =>
      have hentries : ∀ e ∈ entries, (e.1, e.2.listed) = e := fun e he =>
        Prod.ext rfl (hparts e.2 (List.mem_map_of_mem he))
      rw [listed, listedEntries_eq_map, List.map_congr_left hentries, List.map_id']
    | tuple items => exact absurd .refl (htuple items)
    | set members => exact absurd .refl (hset members)
    | _ => rfl

theorem listed_of_elements {v : Value} {items : List Value} (h : v.elements? = some items) :
    v.listed = .list (listedItems items) := by
  cases v <;> cases h <;> rfl

theorem ofJson_of_toJson {v : Value} {j : Json} (sorted : v.Sorted) (h : v.toJson = .ok j) :
    v.listed = ofJson j := by
  refine toJson_induction (R := fun v j => v.listed = ofJson j) rfl (fun _ => rfl) ?int
    (fun _ _ => rfl) (fun _ => rfl) ?elements ?map sorted h
  case int =>
    intro i
    rw [ofJson, ofJsonNumber, toInteger?_jsonInteger]
    rfl
  case elements =>
    intro v items js hv hall
    have hitems : items.map listed = js.map ofJson := Result.map_eq_map_iff.mpr hall
    rw [listed_of_elements hv, listedItems_eq_map, hitems, ofJson, ofJsonItems_eq_map]
  case map =>
    intro m members hm _ hall
    have hentries : listedEntries m = ofJsonMembers members := by
      rw [listedEntries_eq_map, ofJsonMembers_eq_map]
      exact Result.map_eq_map_iff.mpr (hall.imp fun e m' he => Prod.ext he.1 he.2)
    have hkeys : Ascending (Entries.keys (ofJsonMembers members)) := by
      rw [← hentries, keys_listedEntries]
      exact hm
    rw [listed, hentries, ofJson, ofEntries, Entries.ofList_of_ascending hkeys]

/-! ## Trees that come back -/

theorem toJsonItems_ofJsonItems {items : List Json}
    (h : ∀ j ∈ items, (ofJson j).toJson = .ok j) : toJsonItems (ofJsonItems items) = .ok items := by
  rw [ofJsonItems_eq_map, toJsonItems_ok_iff, List.forall₂_map_left_iff, List.forall₂_same]
  exact h

theorem toJsonMembers_ofJsonMembers {members : List (String × Json)}
    (h : ∀ m ∈ members, (ofJson m.2).toJson = .ok m.2) :
    toJsonMembers (ofJsonMembers members) = .ok members := by
  rw [ofJsonMembers_eq_map, toJsonMembers_ok_iff, List.forall₂_map_left_iff, List.forall₂_same]
  intro m hm
  exact ⟨rfl, h m hm⟩

theorem toJson_ofJson {j : Json} (hj : j.WellFormed) (hfit : j.IntegersFit) :
    (ofJson j).toJson = .ok j := by
  induction j using Json.parts_induction with
  | h j ih =>
    obtain ⟨hsound, hparts⟩ := Json.wellFormed_iff.mp hj
    obtain ⟨hsigned, hpartsFit⟩ := Json.integersFit_iff.mp hfit
    have hback : ∀ k ∈ j.parts, (ofJson k).toJson = .ok k := fun k hk =>
      ih k hk (hparts k hk) (hpartsFit k hk)
    cases j with
    | null => rfl
    | bool b => rfl
    | string s => rfl
    | number n => exact toJson_ofJsonNumber hsound hsigned
    | array items =>
      have hitems : toJsonItems (ofJsonItems items) = .ok items := toJsonItems_ofJsonItems hback
      rw [ofJson, toJson, hitems]
      rfl
    | object members =>
      have hmembers : ∀ m ∈ members, (ofJson m.2).toJson = .ok m.2 := fun m hm =>
        hback m.2 (List.mem_map_of_mem hm)
      have hnames : Ascending (Entries.keys (ofJsonMembers members)) := by
        rw [keys_ofJsonMembers]
        exact ascending_names_iff.mpr hsound
      rw [ofJson, ofEntries, Entries.ofList_of_ascending hnames, toJson,
        toJsonMembers_ofJsonMembers hmembers, Except.map, Json.sortMembers_of_named hsound]

theorem jsonInteger_sound (i : Int64) :
    (Json.number (jsonInteger i)).Sound ∧ (Json.number (jsonInteger i)).Signed := by
  by_cases h : i < 0
  · rw [jsonInteger, if_pos h]
    exact ⟨h, trivial⟩
  · obtain ⟨n, hn, -, heq⟩ := exists_unsigned_of_nonneg h
    rw [heq]
    exact ⟨trivial, hn⟩

/-- Every tree that a value has is one of those that come back as themselves. -/
theorem wellFormed_of_toJson {v : Value} {j : Json} (sorted : v.Sorted) (h : v.toJson = .ok j) :
    j.WellFormed ∧ j.IntegersFit := by
  -- Both are asked of a tree itself and then of its parts, so one induction carries both.
  have hall {k : Json} (hsound : k.Sound) (hsigned : k.Signed)
      (hparts : ∀ l ∈ k.parts, l.WellFormed ∧ l.IntegersFit) : k.WellFormed ∧ k.IntegersFit :=
    ⟨Json.wellFormed_iff.mpr ⟨hsound, fun l hl => (hparts l hl).1⟩,
      Json.integersFit_iff.mpr ⟨hsigned, fun l hl => (hparts l hl).2⟩⟩
  have hleaf {k : Json} (hsound : k.Sound) (hsigned : k.Signed) (hparts : k.parts = []) :
      k.WellFormed ∧ k.IntegersFit :=
    hall hsound hsigned (hparts ▸ List.forall_mem_nil _)
  refine toJson_induction (R := fun _ k => k.WellFormed ∧ k.IntegersFit)
    (hleaf trivial trivial rfl) (fun _ => hleaf trivial trivial rfl)
    (fun i => hleaf (jsonInteger_sound i).1 (jsonInteger_sound i).2 rfl)
    (fun x hx => hleaf hx trivial rfl) (fun _ => hleaf trivial trivial rfl) ?elements ?map sorted h
  case elements =>
    intro v items js _ hjs
    exact hall trivial trivial (Result.forall_mem_of_forall₂ hjs fun _ _ _ hj => hj)
  case map =>
    intro m members _ hnamed hmembers
    refine hall hnamed trivial (List.forall_mem_map.mpr ?_)
    exact Result.forall_mem_of_forall₂ hmembers fun _ _ _ he => he.2

/-- A value has a tree exactly if its numbers are finite and its keys are texts. The tree comes back
as the value with lists for tuples and sets, and a tree whose integers fit comes back as itself. -/
theorem trees_faithful :
    (∀ v : Value, (∃ j, v.toJson = .ok j) ↔
      (∀ x, v.Reaches (.float x) → x.isFinite = true) ∧
      ∀ m, v.Reaches (.map m) → ∀ k ∈ Entries.keys m, ∃ s, k = .str s) ∧
    (∀ (v : Value) j, v.Sorted → v.toJson = .ok j →
      ofJson j = v.listed ∧
      ((∀ items, ¬ v.Reaches (.tuple items)) → (∀ members, ¬ v.Reaches (.set members)) →
        ofJson j = v)) ∧
    ∀ j : Json, j.WellFormed → j.IntegersFit → (ofJson j).toJson = .ok j := by
  refine ⟨fun v => exists_toJson_iff.trans reaches_fits_iff, ?_, fun j => toJson_ofJson⟩
  intro v j sorted hj
  have hback : ofJson j = v.listed := (ofJson_of_toJson sorted hj).symm
  refine ⟨hback, fun htuple hset => ?_⟩
  rw [hback, listed_eq_self htuple hset]

def trip : Value :=
  .map [(.str "ids", .set [.int (-2), .int 1]),
    (.str "pair", .tuple [.bool true, .float Binary64.zero.neg])]

def tripTree : Json :=
  .object [("ids", .array [.number (.negative (-2)), .number (.unsigned 1)]),
    ("pair", .array [.bool true, .number (.float Binary64.zero.neg)])]

/-- The set and the tuple of the trip come back as lists; with lists in their place it comes back as
it is, and so does the tree of both. -/
theorem trees_faithful_trip :
    (trip.toJson = .ok tripTree ∧ ∀ x, trip.Reaches (.float x) → x.isFinite = true) ∧
    ofJson tripTree = trip.listed ∧ trip.listed ≠ trip ∧
    (ofJson tripTree).toJson = .ok tripTree := by
  have htree : trip.toJson = .ok tripTree := rfl
  have hlisted : trip.listed.toJson = .ok tripTree := rfl
  have hsorted : trip.listed.Sorted := sorted_ofJson tripTree
  obtain ⟨hdomain, hback, hforth⟩ := trees_faithful
  obtain ⟨hwell, hfit⟩ := wellFormed_of_toJson hsorted hlisted
  obtain ⟨htuple, hset⟩ := not_listed_reaches trip
  refine ⟨⟨htree, ((hdomain trip).mp ⟨tripTree, htree⟩).1⟩, ?_, by decide,
    hforth tripTree hwell hfit⟩
  exact (hback trip.listed tripTree hsorted hlisted).2 htuple hset

end Value

end Conformance
