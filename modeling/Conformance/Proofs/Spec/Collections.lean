import Conformance.Proofs.Spec.Sorted

/-! # Collections have one form for what they hold

Where all that is given to a builder is sorted, so is what the specification adds, a default that is
composed of others included. With this every collection that comes out is in the one form that its
members or entries decide.
-/

namespace Conformance

/-! ## Building -/

section Building

variable {o : Options} {s : Spec}

theorem Rule.writesSorted_normalize {rule : Rule} (h : rule.WritesSorted) (settings : Settings) :
    (rule.normalize settings).1.WritesSorted := by
  cases rule <;> exact h

theorem Settings.default_normalize (rule : Rule) (settings : Settings) :
    (rule.normalize settings).2.default = settings.default := by
  cases rule <;> rfl

theorem Options.default_resolve (chosen : ∀ d ∈ o.default, d.produce.Sorted) {v : Value}
    (hv : v.Sorted) (unset : Unset) : (o.resolve (.value v) unset).default.produce.Sorted := by
  cases hd : o.default with
  | some d =>
    simp only [resolve, hd, Option.getD_some]
    exact chosen d hd
  | none =>
    simp only [resolve, hd, Option.getD_none]
    exact hv

theorem Spec.throughout_sorted_of_assemble {rule : Rule} {settings : Settings}
    (h : assemble rule settings = .ok s) (default : settings.default.produce.Sorted)
    (own : rule.WritesSorted) (parts : ∀ t ∈ rule.specs, t.Throughout WritesSorted) :
    s.Throughout WritesSorted := by
  obtain ⟨rfl, -⟩ := assemble_ok_iff.mp h
  refine .intro ⟨?_, rule.writesSorted_normalize own settings⟩ ?_
  · rw [defaultValue, Settings.default_normalize]
    exact default
  · rwa [rule.specs_normalize]

theorem Base.sorted_of_checkedDefault {b : Base} (hb : ∀ t ∈ b.specs, t.Sorts) {v : Value}
    (h : b.checkedDefault? = some (.ok v)) : v.Sorted := by
  cases b with
  | atom a => cases h
  | spec s =>
    have hs : s.Sorts := hb s List.mem_cons_self
    simp only [checkedDefault?] at h
    split at h
    · cases hc : s.check s.defaultValue with
      | ok w =>
        rw [hc] at h
        cases h
        exact hs.check hs.default hc
      | invalid e =>
        rw [hc] at h
        cases h
      | defect d =>
        rw [hc] at h
        cases h
    · cases h

theorem Base.sorted_of_composeDefaults {positions : List Base}
    (h : ∀ t ∈ positions.flatMap Base.specs, t.Sorts) {vs : List Value}
    (hvs : composeDefaults positions = .ok (some vs)) : ∀ v ∈ vs, v.Sorted := by
  induction positions generalizing vs with
  | nil =>
    cases hvs
    exact List.forall_mem_nil _
  | cons b rest ih =>
    obtain ⟨hb, hrest⟩ := List.forall_mem_append.mp h
    simp only [composeDefaults] at hvs
    cases hd : b.checkedDefault? with
    | none => simp [hd] at hvs
    | some built =>
      cases built with
      | error e => simp [hd] at hvs
      | ok v =>
        simp only [hd] at hvs
        obtain ⟨ws?, hws, hcons⟩ := Result.map_ok_iff.mp hvs
        obtain ⟨ws, rfl, rfl⟩ := Option.map_eq_some_iff.mp hcons
        exact List.forall_mem_cons.mpr ⟨sorted_of_checkedDefault hb hd, ih hrest hws⟩

theorem KeyRule.sorted_of_composeDefaults {keys : List KeyRule}
    (h : ∀ r ∈ keys, r.key.Sorted ∧ ∀ t ∈ r.slot.specs, t.Sorts) {entries : List (Value × Value)}
    (hentries : composeDefaults keys = .ok (some entries)) :
    ∀ e ∈ entries, e.1.Sorted ∧ e.2.Sorted := by
  induction keys generalizing entries with
  | nil =>
    cases hentries
    exact List.forall_mem_nil _
  | cons r rest ih =>
    obtain ⟨⟨hkey, hslot⟩, hrest⟩ := List.forall_mem_cons.mp h
    obtain ⟨key, slot⟩ := r
    simp only [composeDefaults] at hentries
    cases hd : slot.checkedDefault? with
    | none => simp [hd] at hentries
    | some built =>
      cases built with
      | error e => simp [hd] at hentries
      | ok v =>
        simp only [hd] at hentries
        obtain ⟨later?, hlater, hcons⟩ := Result.map_ok_iff.mp hentries
        obtain ⟨later, rfl, rfl⟩ := Option.map_eq_some_iff.mp hcons
        have hv : v.Sorted := by
          cases slot with
          | type b => exact Base.sorted_of_checkedDefault hslot hd
          | conditional c => cases hd
        exact List.forall_mem_cons.mpr ⟨⟨hkey, hv⟩, ih hrest hlater⟩

theorem Spec.throughout_sorted_of_seq {positions : List Base} {container : Container}
    {autoOptional : Bool} (chosen : ∀ d ∈ o.default, d.produce.Sorted)
    (parts : ∀ t ∈ positions.flatMap Base.specs, t.Throughout WritesSorted)
    (h : Spec.seq positions container autoOptional o = .ok s) : s.Throughout WritesSorted := by
  have hclose : ∀ o' : Options, (∀ d ∈ o'.default, d.produce.Sorted) →
      assemble (.seq positions container) (o'.resolve (.value (.list [])) .falsy) = .ok s →
      s.Throughout WritesSorted := by
    intro o' chosen' hs
    have hempty : (Value.list []).Sorted := Value.sorted_of_content trivial rfl
    exact throughout_sorted_of_assemble hs (Options.default_resolve chosen' hempty _) trivial parts
  unfold Spec.seq at h
  dsimp only at h
  split at h
  · exact hclose o chosen h
  · obtain ⟨-, -, h⟩ := Built.bind_ok h
    split at h
    · cases h
    · obtain ⟨defaults?, hdefaults, h⟩ := Built.bind_ok h
      cases defaults? with
      | none => exact hclose o chosen h
      | some vs =>
        have hvs : ∀ v ∈ vs, v.Sorted :=
          Base.sorted_of_composeDefaults (fun t ht => (parts t ht).sorts) hdefaults
        refine hclose _ (fun d hd => ?_) h
        obtain rfl : .value (container.collect vs) = d := Option.some.inj hd
        exact container.sorted_collect hvs

theorem Spec.throughout_sorted_of_mapping {t : Mapping} {autoOptional : Bool}
    (chosen : ∀ d ∈ o.default, d.produce.Sorted) (own : t.WritesSorted)
    (parts : ∀ u ∈ (Rule.mapping t).specs, u.Throughout WritesSorted)
    (h : Spec.mapping t autoOptional o = .ok s) : s.Throughout WritesSorted := by
  have hclose : ∀ o' : Options, (∀ d ∈ o'.default, d.produce.Sorted) →
      assemble (.mapping t) (o'.resolve (.value (.map [])) .falsy) = .ok s →
      s.Throughout WritesSorted := by
    intro o' chosen' hs
    exact throughout_sorted_of_assemble hs (Options.default_resolve chosen' Value.sorted_map_nil _)
      own parts
  unfold Spec.mapping at h
  dsimp only at h
  split at h
  · cases h
  · split at h
    · exact hclose o chosen h
    · obtain ⟨-, -, h⟩ := Built.bind_ok h
      split at h
      · exact hclose { o with optional := some true } chosen h
      · obtain ⟨defaults?, hdefaults, h⟩ := Built.bind_ok h
        cases defaults? with
        | none => exact hclose o chosen h
        | some entries =>
          have hslots : ∀ r ∈ t.keys, r.key.Sorted ∧ ∀ u ∈ r.slot.specs, u.Sorts := by
            intro r hr
            refine ⟨own.keys r hr, fun u hu => (parts u ?_).sorts⟩
            exact List.mem_append_left _ (List.mem_flatMap.mpr ⟨r, hr, hu⟩)
          refine hclose _ (fun d hd => ?_) h
          obtain rfl : .value (Value.ofEntries entries) = d := Option.some.inj hd
          exact Value.sorted_ofEntries (KeyRule.sorted_of_composeDefaults hslots hdefaults)

end Building

/-! ## Collections -/

/-- A set is decided by its members and a mapping by the last value under each key, and collections
ascend at every depth of what a check gives for sorted values and of what is read. -/
theorem collections_extensional :
    (∀ xs ys, Container.set.collect xs = Container.set.collect ys ↔ ∀ v, v ∈ xs ↔ v ∈ ys) ∧
    (∀ xs v, (Container.set.collect xs).contains v = true ↔ v ∈ xs) ∧
    (∀ items k, (Value.ofEntries items).get? k = items.reverse.lookup k) ∧
    (∀ xs ys, (∀ k, xs.reverse.lookup k = ys.reverse.lookup k) →
      Value.ofEntries xs = Value.ofEntries ys) ∧
    (∀ s : Spec, s.Throughout Spec.WritesSorted →
      ∀ v c, v.Sorted → s.check v = .ok c → c.Sorted) ∧
    (∀ j, (Value.ofJson j).Sorted) ∧
    ∀ d v, Value.ofDatum d = .ok v → v.Sorted := by
  refine ⟨fun xs ys => Value.ofMembers_eq_iff, ?_, Value.get?_ofEntries, ?_, ?_,
    Value.sorted_ofJson, ?_⟩
  · intro xs v
    have hcontains : (Value.ofMembers xs).contains v = true ↔ v ∈ Value.members xs :=
      List.contains_iff_mem
    exact hcontains.trans Value.mem_members
  · intro xs ys h
    exact Value.ofEntries_eq_iff.mpr h
  · intro s hs v c hv hc
    exact hs.sorts.check hv hc
  · intro d v h
    exact Value.sorted_ofDatum d h

namespace Playlist

def tags : Spec := ⟨⟨true, .value (.set []), .falsy, []⟩, .iter [.atom (.kind .str)] .set⟩

def owners : Spec :=
  ⟨⟨true, .value (.str "guest"), .empty, []⟩,
    .scalar (.kind .any) (some ⟨⟨⟨[]⟩, fun v => .ok (.ofMembers (v.elements?.getD [v]))⟩, false⟩)⟩

def count : Spec := ⟨⟨true, .value (.int 0), .empty, []⟩, .scalar (.kind .int) none⟩

/-- Minutes and seconds. -/
def length : Spec :=
  ⟨⟨true, .value (.tuple [.int 0, .int 0]), .falsy, []⟩, .seq [.spec count, .spec count] .tuple⟩

def table : Mapping :=
  ⟨[⟨.str "tags", .type (.spec tags)⟩, ⟨.str "owners", .type (.spec owners)⟩,
    ⟨.str "length", .type (.spec length)⟩], [], [], "dict", false⟩

def spec : Spec :=
  ⟨⟨true, .value (.map [(.str "length", .tuple [.int 0, .int 0]),
      (.str "owners", .set [.str "guest"]), (.str "tags", .set [])]), .falsy, []⟩, .mapping table⟩

def request : Value :=
  .map [(.str "length", .list [.int 3, .int 41]), (.str "owners", .str "ada"),
    (.str "tags", .list [.str "b", .str "a", .str "b"])]

def answer : Value :=
  .map [(.str "length", .tuple [.int 3, .int 41]), (.str "owners", .set [.str "ada"]),
    (.str "tags", .set [.str "a", .str "b"])]

theorem writesSorted : spec.Throughout Spec.WritesSorted := by
  have htext : ∀ s : String, (Value.str s).Sorted := fun _ => Value.sorted_of_content trivial rfl
  have hempty : (Value.set []).Sorted := Value.sorted_of_content List.Pairwise.nil rfl
  have htags : tags.Throughout Spec.WritesSorted :=
    .intro ⟨hempty, trivial⟩ (List.forall_mem_nil _)
  have howners : owners.Throughout Spec.WritesSorted := by
    refine .intro ⟨htext "guest", ?_⟩ (List.forall_mem_nil _)
    rintro f ⟨⟩ v w hv ⟨⟩
    refine Value.sorted_ofMembers ?_
    cases hitems : v.elements? with
    | some items => exact hv.elements hitems
    | none => exact List.forall_mem_singleton.mpr hv
  have hcount : count.Throughout Spec.WritesSorted :=
    .intro ⟨Value.sorted_of_content trivial rfl, fun f hf => absurd hf (Option.not_mem_none f)⟩
      (List.forall_mem_nil _)
  have hlength : length.Throughout Spec.WritesSorted := by
    have built : Spec.seq [.spec count, .spec count] .tuple true {} = .ok length := rfl
    refine Spec.throughout_sorted_of_seq (fun d hd => absurd hd (Option.not_mem_none d)) ?_ built
    exact List.forall_mem_cons.mpr ⟨hcount, List.forall_mem_singleton.mpr hcount⟩
  have hkeys : ∀ r ∈ table.keys, r.key.Sorted := by
    rintro r hr
    simp only [table, List.mem_cons, List.not_mem_nil, or_false] at hr
    rcases hr with rfl | rfl | rfl <;> exact htext _
  have htyped : ∀ r ∈ table.keys, ∀ c, r.slot = .conditional c → c.default.Sorted := by
    rintro r hr c hc
    simp only [table, List.mem_cons, List.not_mem_nil, or_false] at hr
    rcases hr with rfl | rfl | rfl <;> cases hc
  have built : Spec.mapping table true {} = .ok spec := rfl
  refine Spec.throughout_sorted_of_mapping (fun d hd => absurd hd (Option.not_mem_none d))
    ⟨hkeys, htyped, List.forall_mem_nil _⟩ ?_ built
  exact List.forall_mem_cons.mpr
    ⟨htags, List.forall_mem_cons.mpr ⟨howners, List.forall_mem_singleton.mpr hlength⟩⟩

theorem sorted_request : request.Sorted := by
  have htext : ∀ s : String, (Value.str s).Sorted := fun _ => Value.sorted_of_content trivial rfl
  have hitems : (Value.list [.str "b", .str "a", .str "b"]).Sorted :=
    Value.sorted_list_iff.mpr (by simp [htext])
  have hlength : (Value.list [.int 3, .int 41]).Sorted := by
    have hint : ∀ i : Int64, (Value.int i).Sorted := fun _ => Value.sorted_of_content trivial rfl
    exact Value.sorted_list_iff.mpr (by simp [hint])
  refine Value.sorted_map_iff.mpr ⟨by decide, ?_⟩
  exact List.forall_mem_cons.mpr ⟨⟨htext "length", hlength⟩, List.forall_mem_cons.mpr
    ⟨⟨htext "owners", htext "ada"⟩, List.forall_mem_singleton.mpr ⟨htext "tags", hitems⟩⟩⟩

end Playlist

theorem collections_extensional_playlist :
    Playlist.spec.check Playlist.request = .ok Playlist.answer ∧ Playlist.answer.Sorted := by
  have accepted : Playlist.spec.check Playlist.request = .ok Playlist.answer := rfl
  obtain ⟨-, -, -, -, hcheck, -⟩ := collections_extensional
  exact ⟨accepted, hcheck _ Playlist.writesSorted _ _ Playlist.sorted_request accepted⟩

end Conformance
