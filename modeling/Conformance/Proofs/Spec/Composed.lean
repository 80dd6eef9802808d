import Conformance.Catalog
import Conformance.Proofs.Mapping.Collision
import Conformance.Proofs.Spec.Unprovided
import Conformance.Proofs.Stable.Elements

/-! # Defaults that are made of defaults

The default of a sequence or a mapping may be made of what its parts are given when they are not
provided. That has been checked part by part, and as a default of the whole it is checked again. So
the whole needs parts that take what they give, in a collection that the whole takes.
-/

namespace Conformance

open Value (Entries Ascending)

namespace Spec

def filled (s : Spec) : Value := (s.check s.defaultValue).value?.getD .null

def refilled (s : Spec) : Value := (s.check s.filled).value?.getD .null

/-- The specification is optional, and its default conforms. -/
structure Fills (s : Spec) : Prop where
  optional : s.isOptional = true
  accepted : s.check s.defaultValue = .ok s.filled

theorem Buildable.fills {s : Spec} (h : s.Buildable) (optional : s.isOptional = true) :
    s.Fills where
  optional := optional
  accepted := by
    obtain ⟨d, hd⟩ := h.sound.own.default optional
    rw [filled, hd]
    rfl

theorem check_refilled {s : Spec} {w : Value} (h : s.check s.filled = .ok w) :
    s.check s.filled = .ok s.refilled := by
  rw [refilled, h]
  rfl

theorem Fills.checkedDefault {s : Spec} (h : s.Fills) :
    (Base.spec s).checkedDefault? = some (.ok s.filled) := by
  rw [Base.checkedDefault?, if_pos h.optional, h.accepted]
  rfl

end Spec

/-! ## A default that has been composed -/

def composedSettings (default : Value) (unset : Option Unset) : Settings :=
  ⟨true, .value default, unset.getD .falsy, []⟩

section Assembled

variable {rule : Rule} {default : Value} {unset : Option Unset}
  (canonical : ∀ w, rule.canonicalize w = .ok w)
include canonical

theorem Spec.check_composed :
    (⟨composedSettings default unset, rule⟩ : Spec).check default = rule.check default := by
  rw [check_eq_checkGiven, checkGiven_of_plain rfl canonical]
  exact congrArg rule.check (Settings.given_default (composedSettings default unset))

/-- With a composed default a rule makes a specification if it takes the default itself. -/
theorem Spec.assemble_composed_iff {s : Spec}
    (plain : ∀ settings, rule.normalize settings = (rule, settings)) :
    assemble rule (composedSettings default unset) = .ok s ↔
      s = ⟨composedSettings default unset, rule⟩ ∧ ∃ w, rule.check default = .ok w := by
  rw [assemble_ok_iff, plain]
  refine and_congr_right ?_
  rintro rfl
  rw [← check_composed canonical]
  exact ⟨fun h => h rfl, fun h _ => h⟩

/-- Then it gives for an unset value what the rule makes of the default. -/
theorem Spec.check_composed_of_unset {u : Value} (hu : (unset.getD .falsy).holds u = true) :
    (⟨composedSettings default unset, rule⟩ : Spec).check u = rule.check default := by
  rw [check_of_unset rfl hu]
  exact check_composed canonical

end Assembled

/-! ## Sequences -/

section Sequence

variable {specs : List Spec} {container : Container} {unset : Option Unset}

theorem Base.composeDefaults_of_fills (h : ∀ t ∈ specs, t.Fills) :
    composeDefaults (specs.map .spec) = .ok (some (specs.map Spec.filled)) := by
  induction specs with
  | nil => rfl
  | cons t rest ih =>
    obtain ⟨ht, hrest⟩ := List.forall_mem_cons.mp h
    rw [List.map_cons, composeDefaults, ht.checkedDefault, ih hrest]
    rfl

theorem checkPositions_specs {give take : Spec → Value}
    (h : ∀ t ∈ specs, t.check (give t) = .ok (take t)) (place : Nat) :
    checkPositions place (specs.map .spec) (specs.map give) = .ok (specs.map take, []) := by
  rw [checkPositions_ok_iff, List.zipWith_map, List.zipWith_self, List.forall₂_map_left_iff,
    List.forall₂_map_right_iff, List.forall₂_same]
  exact h

def sequenceDefault (specs : List Spec) (container : Container) : Value :=
  container.collect (specs.map Spec.filled)

theorem Spec.seq_of_fills (nonempty : specs ≠ []) (h : ∀ t ∈ specs, t.Fills) :
    Spec.seq (specs.map .spec) container true { unset } =
      assemble (.seq (specs.map .spec) container)
        (composedSettings (sequenceDefault specs container) unset) := by
  have hempty : (specs.map Base.spec).isEmpty = false := by
    simpa using nonempty
  rw [Spec.seq]
  simp only [Options.allowAuto, hempty, Base.composeDefaults_of_fills h]
  rfl

/-- A list or tuple of values that the positions take is a sequence that the rule takes. -/
theorem Rule.check_sequenceDefault (sequence : container ≠ .set)
    (stable : ∀ t ∈ specs, t.check t.filled = .ok t.filled) :
    (Rule.seq (specs.map .spec) container).check (sequenceDefault specs container) =
      .ok (sequenceDefault specs container) := by
  refine Rule.seq_check_ok_iff.mpr ⟨specs.map Spec.filled, specs.map Spec.filled,
    Container.sequence_collect sequence _, ?_, checkPositions_specs stable 0, rfl⟩
  rw [List.length_map, List.length_map]

/-- A sequence that is to be optional if its positions are, gives for an unset value the collection
of what they give, if they take it and it is a list or tuple. A set cannot be built this way at all,
because the default would be one, and a set is no sequence. -/
theorem check_composed_sequence {positions : List Descriptor}
    (types : toBases positions = .ok (specs.map .spec)) (nonempty : specs ≠ [])
    (built : ∀ t ∈ specs, t.Buildable) (optional : ∀ t ∈ specs, t.isOptional = true) :
    (∀ t ∈ specs, t.check t.defaultValue = .ok t.filled) ∧
    (container ≠ .set → (∀ t ∈ specs, t.check t.filled = .ok t.filled) →
      ∃ s, Schema.seq positions container true { unset } = .ok s ∧ s.isOptional = true ∧
        s.settings.unset = unset.getD .falsy ∧
        ∀ u, s.settings.unset.holds u = true →
          s.check u = .ok (container.collect (specs.map Spec.filled))) ∧
    (container = .set →
      Schema.seq positions container true { unset } =
        .error (.invalidDefault (.mismatch "Must be a sequence"))) := by
  have hfills : ∀ t ∈ specs, t.Fills := fun t ht => (built t ht).fills (optional t ht)
  have hseq : Schema.seq positions container true { unset } =
      Spec.assemble (.seq (specs.map .spec) container)
        (composedSettings (sequenceDefault specs container) unset) := by
    rw [Schema.seq, types, ← Spec.seq_of_fills nonempty hfills]
    rfl
  rw [hseq]
  refine ⟨fun t ht => (hfills t ht).accepted, fun sequence stable => ?_, ?_⟩
  · have hdefault := Rule.check_sequenceDefault sequence stable
    refine ⟨_, (Spec.assemble_composed_iff (fun _ => rfl) fun _ => rfl).mpr ⟨rfl, _, hdefault⟩,
      rfl, rfl, fun u hu => ?_⟩
    exact (Spec.check_composed_of_unset (fun _ => rfl) hu).trans hdefault
  · rintro rfl
    rfl

end Sequence

namespace Endpoint

def host : Spec := ⟨⟨true, .value (.str "localhost"), .empty, []⟩, .scalar (.kind .str) none⟩

def port : Spec := ⟨⟨true, .value (.int 80), .empty, []⟩, .scalar (.kind .int) none⟩

theorem buildable_host : host.Buildable :=
  .type (show Schema.type (.atom (.kind .str)) none
    { optional := some true, default := some (.value (.str "localhost")) } = .ok host from rfl)

theorem buildable_port : port.Buildable :=
  .type (show Schema.type (.atom (.kind .int)) none
    { optional := some true, default := some (.value (.int 80)) } = .ok port from rfl)

end Endpoint

theorem check_composed_sequence_endpoint :
    ∃ s, Schema.seq [.spec Endpoint.host, .spec Endpoint.port] .tuple true {} = .ok s ∧
      s.isOptional = true ∧ s.check .null = .ok (.tuple [.str "localhost", .int 80]) := by
  have htypes : toBases [.spec Endpoint.host, .spec Endpoint.port] =
      .ok ([Endpoint.host, Endpoint.port].map .spec) := rfl
  have hbuilt : ∀ t ∈ [Endpoint.host, Endpoint.port], t.Buildable :=
    List.forall_mem_cons.mpr
      ⟨Endpoint.buildable_host, List.forall_mem_singleton.mpr Endpoint.buildable_port⟩
  have hoptional : ∀ t ∈ [Endpoint.host, Endpoint.port], t.isOptional = true := by decide
  have hstable : ∀ t ∈ [Endpoint.host, Endpoint.port], t.check t.filled = .ok t.filled :=
    List.forall_mem_cons.mpr ⟨rfl, List.forall_mem_singleton.mpr rfl⟩
  obtain ⟨-, hsequence, -⟩ :=
    @check_composed_sequence _ .tuple none _ htypes nofun hbuilt hoptional
  obtain ⟨s, hs, hsOptional, hpolicy, hunset⟩ := hsequence nofun hstable
  refine ⟨s, hs, hsOptional, hunset .null ?_⟩
  rw [hpolicy]
  rfl

/-- One position that takes what it gives is not enough for a set. -/
theorem check_composed_sequence_set :
    Endpoint.port.Buildable ∧ Endpoint.port.isOptional = true ∧
    Endpoint.port.check Endpoint.port.filled = .ok Endpoint.port.filled ∧
    Schema.seq [.spec Endpoint.port] .set true {} =
      .error (.invalidDefault (.mismatch "Must be a sequence")) :=
  ⟨Endpoint.buildable_port, rfl, rfl, rfl⟩

/-! ## Mappings -/

def Schema.MappingDecl.table (d : MappingDecl) : Built Mapping := do
  let keys ← d.keys.mapM fun e => e.2.build.map (KeyRule.mk e.1)
  let patterns ← d.patterns.mapM fun e => do
    let pattern ← e.1.toBase
    let type ← e.2.toBase
    return PatternRule.mk pattern type
  return ⟨keys, patterns, d.post, d.name, d.unhandledOk⟩

theorem Schema.MappingDecl.build_eq (d : MappingDecl) :
    d.build = d.table >>= fun t => Spec.mapping t d.autoOptional d.options := by
  rw [build, table]
  simp only [bind_assoc, pure_bind]

section Mapping

variable {declared : List (Value × Spec)} {patterns : List PatternRule} {name : String}
  {unhandledOk : Bool} {unset : Option Unset} {m : Entries}

def typedBy (declared : List (Value × Spec)) : List (Value × Base) :=
  declared.map fun e => (e.1, .spec e.2)

def entriesBy (give : Spec → Value) (declared : List (Value × Spec)) : List (Value × Value) :=
  declared.map fun e => (e.1, give e.2)

theorem keys_entriesBy (give : Spec → Value) :
    Entries.keys (entriesBy give declared) = declared.map Prod.fst := by
  rw [Entries.keys, entriesBy, List.map_map]
  rfl

theorem KeyRule.composeDefaults_of_fills (h : ∀ e ∈ declared, e.2.Fills) :
    composeDefaults ((typedBy declared).map .typed) =
      .ok (some (entriesBy Spec.filled declared)) := by
  induction declared with
  | nil => rfl
  | cons e rest ih =>
    obtain ⟨he, hrest⟩ := List.forall_mem_cons.mp h
    have hslot : (KeyRule.typed (e.1, .spec e.2)).slot.checkedDefault? = some (.ok e.2.filled) :=
      he.checkedDefault
    rw [typedBy, List.map_cons, List.map_cons, ← typedBy, composeDefaults, hslot, ih hrest]
    rfl

theorem Spec.mapping_of_fills (nonempty : declared ≠ []) (h : ∀ e ∈ declared, e.2.Fills) :
    Spec.mapping (.typed (typedBy declared) patterns name unhandledOk) true { unset } =
      assemble (.mapping (.typed (typedBy declared) patterns name unhandledOk))
        (composedSettings (Value.ofEntries (entriesBy Spec.filled declared)) unset) := by
  have hempty : ((typedBy declared).map KeyRule.typed).isEmpty = false := by
    simpa [typedBy] using nonempty
  rw [Spec.mapping]
  simp only [Mapping.typed, Options.allowAuto, hempty, KeyRule.composeDefaults_of_fills h]
  rfl

/-! ### A mapping from which every key gets a value -/

section Provided

variable {give : Spec → Value}
  (h : ∀ e ∈ declared, (Base.spec e.2).provided? (Entries.get? e.1 m) = some (.ok (give e.2)))
include h

theorem declaredEntries_typedBy :
    declaredEntries (typedBy declared) m = entriesBy give declared := by
  rw [declaredEntries, typedBy, List.filterMap_map, entriesBy, ← List.filterMap_eq_map]
  refine List.filterMap_congr fun e he => ?_
  simp [declaredItem?, h e he]

theorem declaredFailures_typedBy : (typedBy declared).filterMap (declaredFailure? m) = [] := by
  refine List.filterMap_eq_nil_iff.mpr (List.forall_mem_map.mpr fun e he => ?_)
  rw [declaredFailure?, h e he]

theorem provided_typedBy :
    ∀ e ∈ typedBy declared, ∀ d, e.2.provided? (Entries.get? e.1 m) ≠ some (.defect d) := by
  refine List.forall_mem_map.mpr fun e he d => ?_
  rw [h e he]
  nofun

theorem runKeys_typedBy :
    runKeys ((typedBy declared).map .typed) m ⟨.start m, []⟩ =
      .ok ⟨⟨Entries.ofList (entriesBy give declared), ((Progress.start m).claimAll
        ((typedBy declared).map Prod.fst)).unhandled⟩, []⟩ := by
  rw [runKeys_typed (Progress.within_start m) (provided_typedBy h), declaredFailures_typedBy h,
    ← declaredEntries, declaredEntries_typedBy h]
  rfl

variable (others : otherKeys (typedBy declared) m = [])
include others

theorem defectFree_typedBy : DefectFree (typedBy declared) patterns m where
  provided := provided_typedBy h
  offered := by
    rw [others]
    exact List.forall_mem_nil _

theorem readingFailures_typedBy :
    readingFailures (typedBy declared) patterns unhandledOk m = [] := by
  have hunclaimed : unclaimedKeys (typedBy declared) patterns m = [] := by
    rw [unclaimedKeys, others]
    rfl
  rw [readingFailures, declaredFailures_typedBy h, others, List.filterMap_nil, List.append_nil,
    List.nil_append, leftoverFailures_eq_nil_iff]
  exact fun hne => absurd hunclaimed hne

theorem reading_typedBy :
    reading (typedBy declared) patterns m = Entries.ofList (entriesBy give declared) := by
  rw [reading, patternEntries, others, declaredEntries_typedBy h]
  rfl

end Provided

/-! ### The default as a mapping -/

theorem get?_ofList_entriesBy (distinct : (declared.map Prod.fst).Nodup) (give : Spec → Value) :
    ∀ e ∈ declared, Entries.get? e.1 (Entries.ofList (entriesBy give declared)) =
      some (give e.2) := by
  have hincludes : (Entries.ofList (entriesBy give declared)).Includes
      (entriesBy give declared) :=
    Entries.includes_ofList_of_nodup (by rwa [keys_entriesBy])
  exact fun e he => hincludes (e.1, give e.2) (List.mem_map.mpr ⟨e, he, rfl⟩)

theorem ofEntries_entriesBy_eq_iff (distinct : (declared.map Prod.fst).Nodup)
    {give give' : Spec → Value} :
    Value.ofEntries (entriesBy give declared) = Value.ofEntries (entriesBy give' declared) ↔
      ∀ e ∈ declared, give e.2 = give' e.2 := by
  constructor
  · intro h e he
    have hentries : Entries.ofList (entriesBy give declared) =
        Entries.ofList (entriesBy give' declared) := Value.map.inj h
    have hget := get?_ofList_entriesBy distinct give e he
    rw [hentries, get?_ofList_entriesBy distinct give' e he] at hget
    exact (Option.some.inj hget).symm
  · intro h
    have hsame : entriesBy give declared = entriesBy give' declared :=
      List.map_congr_left fun e he => by rw [h e he]
    rw [hsame]

theorem otherKeys_ofList_entriesBy (give : Spec → Value) :
    otherKeys (typedBy declared) (Entries.ofList (entriesBy give declared)) = [] := by
  rw [otherKeys_eq (Entries.ascending_ofList _), List.filter_eq_nil_iff]
  intro key hkey
  have hdeclared : key ∈ (typedBy declared).map Prod.fst := by
    rw [typedBy, List.map_map]
    rw [Entries.mem_keys_ofList, keys_entriesBy] at hkey
    exact hkey
  simpa using hdeclared

/-- The table takes the default if each key takes what it has given, and makes of it what they make
of that. -/
theorem Rule.check_mappingDefault_iff (distinct : (declared.map Prod.fst).Nodup) {out : Value} :
    (Rule.mapping (.typed (typedBy declared) patterns name unhandledOk)).check
        (Value.ofEntries (entriesBy Spec.filled declared)) = .ok out ↔
      (∀ e ∈ declared, ∃ w, e.2.check e.2.filled = .ok w) ∧
        out = Value.ofEntries (entriesBy Spec.refilled declared) := by
  have hget := get?_ofList_entriesBy distinct Spec.filled
  -- Every key of the default is declared, so patterns have no say in it.
  have hothers : otherKeys (typedBy declared)
      (Entries.ofList (entriesBy Spec.filled declared)) = [] := otherKeys_ofList_entriesBy _
  have hprovided (htakes : ∀ e ∈ declared, ∃ w, e.2.check e.2.filled = .ok w) :
      ∀ e ∈ declared, (Base.spec e.2).provided?
        (Entries.get? e.1 (Entries.ofList (entriesBy Spec.filled declared))) =
          some (.ok e.2.refilled) := by
    intro e he
    obtain ⟨w, hw⟩ := htakes e he
    rw [hget e he]
    exact congrArg some (Spec.check_refilled hw)
  rw [Value.ofEntries, check_typed_ok_iff (Entries.ascending_ofList _)]
  constructor
  · rintro ⟨hfree, hfailures, rfl⟩
    simp only [readingFailures, List.append_eq_nil_iff, List.filterMap_eq_nil_iff] at hfailures
    have htakes : ∀ e ∈ declared, ∃ w, e.2.check e.2.filled = .ok w := by
      intro e he
      have hmem : (e.1, Base.spec e.2) ∈ typedBy declared := List.mem_map.mpr ⟨e, he, rfl⟩
      obtain ⟨own, hown, -⟩ :=
        declaredItem_of_no_failure (hfree.provided _ hmem) (hfailures.1.1 _ hmem)
      rw [hget e he] at hown
      exact ⟨own, Option.some.inj hown⟩
    exact ⟨htakes, congrArg Value.map (reading_typedBy (hprovided htakes) hothers)⟩
  · rintro ⟨htakes, rfl⟩
    exact ⟨defectFree_typedBy (hprovided htakes) hothers,
      readingFailures_typedBy (hprovided htakes) hothers,
      congrArg Value.map (reading_typedBy (hprovided htakes) hothers).symm⟩

theorem Spec.mapping_ok_iff (nonempty : declared ≠ []) (distinct : (declared.map Prod.fst).Nodup)
    (h : ∀ e ∈ declared, e.2.Fills) {s : Spec} :
    Spec.mapping (.typed (typedBy declared) patterns name unhandledOk) true { unset } = .ok s ↔
      s = ⟨composedSettings (Value.ofEntries (entriesBy Spec.filled declared)) unset,
          .mapping (.typed (typedBy declared) patterns name unhandledOk)⟩ ∧
        ∀ e ∈ declared, ∃ w, e.2.check e.2.filled = .ok w := by
  rw [mapping_of_fills nonempty h, assemble_composed_iff (fun _ => rfl) fun _ => rfl]
  refine and_congr_right fun _ => ?_
  constructor
  · rintro ⟨w, hw⟩
    exact ((Rule.check_mappingDefault_iff distinct).mp hw).1
  · intro htakes
    exact ⟨_, (Rule.check_mappingDefault_iff distinct).mpr ⟨htakes, rfl⟩⟩

/-- A mapping that is to be optional if its keys are. A pass over a mapping without the keys fills
in what they give for nothing, each value checked once. The default is made of the same values, but
it is checked again whenever it stands for a value: such a mapping can be built just if every key
takes what it has given, and an unset value becomes what the keys make of that, which is the same
only if they leave it as it is. -/
theorem check_composed_mapping {d : Schema.MappingDecl}
    (table : d.table = .ok (.typed (typedBy declared) patterns name unhandledOk))
    (auto : d.autoOptional = true) (options : d.options = { unset }) (nonempty : declared ≠ [])
    (distinct : (declared.map Prod.fst).Nodup) (built : ∀ e ∈ declared, e.2.Buildable)
    (optional : ∀ e ∈ declared, e.2.isOptional = true) :
    (∀ e ∈ declared, e.2.check e.2.defaultValue = .ok e.2.filled) ∧
    (∀ m, (∀ e ∈ declared, Entries.get? e.1 m = none) →
      ∃ p, runKeys ((typedBy declared).map .typed) m ⟨.start m, []⟩ = .ok ⟨p, []⟩ ∧
        .map p.output = Value.ofEntries (entriesBy Spec.filled declared)) ∧
    ((∃ s, d.build = .ok s) ↔ ∀ e ∈ declared, ∃ w, e.2.check e.2.filled = .ok w) ∧
    ∀ s, d.build = .ok s → s.isOptional = true ∧ s.settings.unset = unset.getD .falsy ∧
      (∀ e ∈ declared, e.2.check e.2.filled = .ok e.2.refilled) ∧
      ∀ u, s.settings.unset.holds u = true →
        s.check u = .ok (Value.ofEntries (entriesBy Spec.refilled declared)) ∧
        (s.check u = .ok (Value.ofEntries (entriesBy Spec.filled declared)) ↔
          ∀ e ∈ declared, e.2.check e.2.filled = .ok e.2.filled) := by
  have hfills : ∀ e ∈ declared, e.2.Fills := fun e he => (built e he).fills (optional e he)
  have hbuild : d.build =
      Spec.mapping (.typed (typedBy declared) patterns name unhandledOk) true { unset } := by
    rw [d.build_eq, table, auto, options]
    rfl
  rw [hbuild]
  refine ⟨fun e he => (hfills e he).accepted, fun m absent => ?_, ?_, ?_⟩
  · have hprovided : ∀ e ∈ declared, (Base.spec e.2).provided? (Entries.get? e.1 m) =
        some (.ok e.2.filled) := by
      intro e he
      rw [absent e he]
      exact Base.provided_none (hfills e he).optional (hfills e he).accepted
    exact ⟨_, runKeys_typedBy hprovided, rfl⟩
  · constructor
    · rintro ⟨s, hs⟩
      exact (Spec.mapping_ok_iff nonempty distinct hfills).mp hs |>.2
    · intro htakes
      exact ⟨_, (Spec.mapping_ok_iff nonempty distinct hfills).mpr ⟨rfl, htakes⟩⟩
  · intro s hs
    obtain ⟨rfl, htakes⟩ := (Spec.mapping_ok_iff nonempty distinct hfills).mp hs
    have hagain : ∀ e ∈ declared, e.2.check e.2.filled = .ok e.2.refilled := by
      intro e he
      obtain ⟨w, hw⟩ := htakes e he
      exact Spec.check_refilled hw
    have hdefault : (Rule.mapping (.typed (typedBy declared) patterns name unhandledOk)).check
        (Value.ofEntries (entriesBy Spec.filled declared)) =
          .ok (Value.ofEntries (entriesBy Spec.refilled declared)) :=
      (Rule.check_mappingDefault_iff distinct).mpr ⟨htakes, rfl⟩
    refine ⟨rfl, rfl, hagain, fun u hu => ?_⟩
    have hcheck := (Spec.check_composed_of_unset (fun _ => rfl) hu).trans hdefault
    refine ⟨hcheck, ?_⟩
    rw [hcheck, Outcome.ok.injEq, ofEntries_entriesBy_eq_iff distinct]
    refine forall₂_congr fun e he => ?_
    rw [hagain e he, Outcome.ok.injEq]

end Mapping

namespace Endpoint

def wrap : Callback Catalog.Canon := ⟨⟨[]⟩, Catalog.wrap⟩

def toInteger : Callback Catalog.Canon :=
  ⟨⟨[]⟩, Catalog.onText Catalog.expectedText fun s => Catalog.parseInteger s.toList⟩

/-- A list of one tag. It takes a list again, and makes a list of that. -/
def tags : Spec :=
  ⟨⟨true, .value (.str "a"), .empty, []⟩, .scalar (.kind .any) (some ⟨wrap, false⟩)⟩

/-- A number that is given as a text. It does not take a number. -/
def retries : Spec :=
  ⟨⟨true, .value (.str "3"), .empty, []⟩, .scalar (.kind .str) (some ⟨toInteger, false⟩)⟩

theorem buildable_tags : tags.Buildable :=
  .type (show Schema.type (.atom (.kind .any)) (some wrap)
    { optional := some true, default := some (.value (.str "a")) } = .ok tags from rfl)

theorem buildable_retries : retries.Buildable :=
  .type (show Schema.type (.atom (.kind .str)) (some toInteger)
    { optional := some true, default := some (.value (.str "3")) } = .ok retries from rfl)

def labelled : List (Value × Spec) := [(.str "port", port), (.str "tags", tags)]

/-- Keys of their own types, and any other keys, which are left out. -/
def declaration (declared : List (Value × Spec)) : Schema.MappingDecl where
  keys := declared.map fun e => (e.1, .type (.spec e.2))
  unhandledOk := true
  autoOptional := true

end Endpoint

/-- The tag stands in a list if other keys are there, and in a list of lists if nothing is. -/
theorem check_composed_mapping_labelled :
    ∃ s, (Endpoint.declaration Endpoint.labelled).build = .ok s ∧
      s.check .null = .ok (.map [(.str "port", .int 80), (.str "tags", .list [.list [.str "a"]])]) ∧
      ∃ p, runKeys ((typedBy Endpoint.labelled).map .typed) [(.str "x", .int 1)]
          ⟨.start [(.str "x", .int 1)], []⟩ = .ok ⟨p, []⟩ ∧
        p.output = [(.str "port", .int 80), (.str "tags", .list [.str "a"])] := by
  have htable : (Endpoint.declaration Endpoint.labelled).table =
      .ok (.typed (typedBy Endpoint.labelled) [] "dict" true) := rfl
  have hbuilt : ∀ e ∈ Endpoint.labelled, e.2.Buildable :=
    List.forall_mem_cons.mpr
      ⟨Endpoint.buildable_port, List.forall_mem_singleton.mpr Endpoint.buildable_tags⟩
  have hoptional : ∀ e ∈ Endpoint.labelled, e.2.isOptional = true :=
    List.forall_mem_cons.mpr ⟨rfl, List.forall_mem_singleton.mpr rfl⟩
  have htakes : ∀ e ∈ Endpoint.labelled, ∃ w, e.2.check e.2.filled = .ok w :=
    List.forall_mem_cons.mpr ⟨⟨_, rfl⟩, List.forall_mem_singleton.mpr ⟨_, rfl⟩⟩
  have habsent : ∀ e ∈ Endpoint.labelled, Entries.get? e.1 [(.str "x", .int 1)] = none :=
    List.forall_mem_cons.mpr ⟨rfl, List.forall_mem_singleton.mpr rfl⟩
  obtain ⟨-, hpass, hbuild, hunset⟩ :=
    @check_composed_mapping _ _ _ _ none _ htable rfl rfl nofun (by decide) hbuilt hoptional
  obtain ⟨s, hs⟩ := hbuild.mpr htakes
  obtain ⟨-, hpolicy, -, hcheck⟩ := hunset s hs
  obtain ⟨p, hp, houtput⟩ := hpass _ habsent
  refine ⟨s, hs, (hcheck .null ?_).1, p, hp, Value.map.inj houtput⟩
  rw [hpolicy]
  rfl

/-- A key that does not take what it gives, because that is of another kind, keeps the whole from
being built although its default conforms. -/
theorem check_composed_mapping_retries :
    Endpoint.retries.Buildable ∧ Endpoint.retries.isOptional = true ∧
    Endpoint.retries.check Endpoint.retries.defaultValue = .ok (.int 3) ∧
    ∃ e, (Endpoint.declaration [(.str "retries", Endpoint.retries)]).build =
      .error (.invalidDefault e) :=
  ⟨Endpoint.buildable_retries, rfl, rfl, _, rfl⟩

end Conformance
