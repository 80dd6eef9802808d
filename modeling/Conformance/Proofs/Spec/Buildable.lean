import Conformance.Proofs.Conditional.Selection
import Conformance.Proofs.Result
import Conformance.Proofs.Spec.Verdict
import Conformance.Schema

/-! # Specifications that builders return

A builder refers to specifications that builders have returned before. What every builder sees to
is therefore true throughout a specification, of whatever it refers to.
-/

namespace Conformance

/-! ## Specifications inside a specification -/

def Base.specs : Base → List Spec
  | .atom _ => []
  | .spec s => [s]

/-- A case as the specification by which it has been declared. -/
def Case.spec (x : Case) : Spec := ⟨x.settings, .mapping x.mapping⟩

namespace Slot

def cases : Slot → List Case
  | .type _ => []
  | .conditional c => c.cases

def specs : Slot → List Spec
  | .type b => b.specs
  | .conditional c => c.cases.map Case.spec

end Slot

namespace Rule

def cases : Rule → List Case
  | .mapping t => t.keys.flatMap fun r => r.slot.cases
  | _ => []

def specs : Rule → List Spec
  | .scalar _ _ | .enum _ _ => []
  | .union types | .iter types _ | .seq types _ => types.flatMap Base.specs
  | .mapping t => (t.keys.flatMap fun r => r.slot.specs) ++
      t.patterns.flatMap fun r => r.pattern.specs ++ r.type.specs

theorem specs_normalize (r : Rule) (settings : Settings) :
    (r.normalize settings).1.specs = r.specs := by
  cases r with
  | union types =>
    simp only [normalize, specs]
    split
    · rw [List.flatMap_append]
      exact List.append_nil _
    · rfl
  | _ => rfl

theorem cases_normalize (r : Rule) (settings : Settings) :
    (r.normalize settings).1.cases = r.cases := by
  cases r <;> rfl

end Rule

namespace Spec

/-- A property of a specification and of all to which it refers, by itself or through others. -/
inductive Throughout (P : Spec → Prop) : Spec → Prop
  | intro {s} : P s → (∀ t ∈ s.rule.specs, Throughout P t) → Throughout P s

theorem Throughout.own {P : Spec → Prop} {s : Spec} (h : s.Throughout P) : P s := by
  cases h with
  | intro hs _ => exact hs

theorem Throughout.parts {P : Spec → Prop} {s : Spec} (h : s.Throughout P) :
    ∀ t ∈ s.rule.specs, t.Throughout P := by
  cases h with
  | intro _ hparts => exact hparts

end Spec

/-! ## What is given to a builder -/

mutual

def Descriptor.specs : Descriptor → List Spec
  | .atom _ => []
  | .spec s => [s]
  | .list types => shorthandSpecs types
  | .values _ => []
  | .union types => shorthandSpecs types
  | .mapping entries => entrySpecs entries

def shorthandSpecs : List Descriptor → List Spec
  | [] => []
  | d :: rest => d.specs ++ shorthandSpecs rest

def entrySpecs : List SchemaEntry → List Spec
  | [] => []
  | ⟨key, type⟩ :: rest => key.specs ++ type.specs ++ entrySpecs rest

def SchemaKey.specs : SchemaKey → List Spec
  | .value _ => []
  | .pattern d => d.specs

end

namespace Schema

namespace KeySlot

def specs : KeySlot → List Spec
  | .type d => d.specs
  | .conditional c => c.cases.map Case.spec

def Declared : KeySlot → Prop
  | .type _ => True
  | .conditional c => ∃ cases optional default applyDefaultSpec,
      Schema.conditional cases optional default applyDefaultSpec = .ok c

end KeySlot

def MappingDecl.specs (d : MappingDecl) : List Spec :=
  (d.keys.flatMap fun e => e.2.specs) ++ d.patterns.flatMap fun e => e.1.specs ++ e.2.specs

end Schema

/-- The specifications that come from a builder, from a shorthand or from a change of one that has
been built. -/
inductive Spec.Buildable : Spec → Prop
  | type {base c o s} : Schema.type base c o = .ok s → Buildable s
  | refined {base c o s} : Schema.refined base c o = .ok s → Buildable s
  | enum {values c o s} : Schema.enum values c o = .ok s → Buildable s
  | union {types o s} : (∀ t ∈ shorthandSpecs types, Buildable t) →
      Schema.union types o = .ok s → Buildable s
  | iter {types container o s} : (∀ t ∈ shorthandSpecs types, Buildable t) →
      Schema.iter types container o = .ok s → Buildable s
  | seq {positions container autoOptional o s} : (∀ t ∈ shorthandSpecs positions, Buildable t) →
      Schema.seq positions container autoOptional o = .ok s → Buildable s
  | mapping {d : Schema.MappingDecl} {s} : (∀ t ∈ d.specs, Buildable t) →
      (∀ e ∈ d.keys, e.2.Declared) → d.build = .ok s → Buildable s
  | shorthand {d : Descriptor} {s} : (∀ t ∈ d.specs, Buildable t) →
      d.toBase = .ok (.spec s) → Buildable s
  | derived {s t configure} : Buildable s → s.derive configure = .ok t → Buildable t
  | constrained {s t cs} : Buildable s → s.addConstraints cs = .ok t → Buildable t

/-! ## Steps of building -/

namespace Built

variable {α β : Type} {b : β}

theorem bind_ok {x : Built α} {f : α → Built β} (h : x >>= f = .ok b) :
    ∃ a, x = .ok a ∧ f a = .ok b := Result.bind_ok_iff.mp h

theorem map_ok {x : Built α} {f : α → β} (h : x.map f = .ok b) : ∃ a, x = .ok a ∧ f a = b :=
  Result.map_ok_iff.mp h

theorem mem_mapM {f : α → Built β} {xs : List α} {ys : List β} (h : xs.mapM f = .ok ys) :
    ∀ y ∈ ys, ∃ x ∈ xs, f x = .ok y := by
  induction xs generalizing ys with
  | nil =>
    cases h
    exact List.forall_mem_nil _
  | cons x rest ih =>
    rw [List.mapM_cons] at h
    obtain ⟨y, hy, h⟩ := bind_ok h
    obtain ⟨later, hlater, h⟩ := bind_ok h
    cases h
    refine List.forall_mem_cons.mpr ⟨⟨x, List.mem_cons_self, hy⟩, fun z hz => ?_⟩
    obtain ⟨w, hw, hwz⟩ := ih hlater z hz
    exact ⟨w, List.mem_cons_of_mem x hw, hwz⟩

end Built

/-- A base with patterns is refused as a case. -/
theorem Case.patterns_of_ofBase {v : Value} {b : Base} {x : Case} (h : Case.ofBase v b = .ok x) :
    x.mapping.patterns = [] := by
  unfold Case.ofBase at h
  split at h
  · split at h
    · next hempty =>
      cases h
      exact List.isEmpty_iff.mp hempty
    · cases h
  · cases h

theorem Case.mem_insert {x y : Case} {cases : List Case} (h : y ∈ x.insert cases) :
    y = x ∨ y ∈ cases := by
  induction cases with
  | nil => exact .inl (List.mem_singleton.mp h)
  | cons z rest ih =>
    unfold Case.insert at h
    split at h
    · exact List.mem_cons.mp h
    · exact (List.mem_cons.mp h).imp_right (List.mem_cons_of_mem z)
    · rcases List.mem_cons.mp h with rfl | hy
      · exact .inr List.mem_cons_self
      · exact (ih hy).imp_right (List.mem_cons_of_mem z)

theorem Conditional.mem_of_ofCases {raw : List Case} {optional applyDefaultSpec : Bool}
    {default : Value} {c : Conditional}
    (h : Conditional.ofCases raw optional default applyDefaultSpec = .ok c) :
    ∀ x ∈ c.cases, x ∈ raw := by
  have hfold : ∀ (raw acc : List Case), ∀ x ∈ raw.foldl (fun acc c => c.insert acc) acc,
      x ∈ raw ∨ x ∈ acc := by
    intro raw
    induction raw with
    | nil => exact fun acc x hx => .inr hx
    | cons y rest ih =>
      intro acc x hx
      rcases ih _ x hx with hx | hx
      · exact .inl (List.mem_cons_of_mem y hx)
      · rcases Case.mem_insert hx with rfl | hx
        · exact .inl List.mem_cons_self
        · exact .inr hx
  unfold Conditional.ofCases at h
  dsimp only at h
  split at h
  · cases h
  · cases h
    intro x hx
    exact (hfold raw [] x hx).resolve_right List.not_mem_nil

/-- However the default of a sequence comes about, the sequence is assembled. -/
theorem Spec.exists_assemble_of_seq {positions : List Base} {container : Container}
    {autoOptional : Bool} {o : Options} {s : Spec}
    (h : Spec.seq positions container autoOptional o = .ok s) :
    ∃ settings, assemble (.seq positions container) settings = .ok s := by
  unfold Spec.seq at h
  dsimp only at h
  split at h
  · exact ⟨_, h⟩
  · obtain ⟨-, -, h⟩ := Built.bind_ok h
    split at h
    · cases h
    · obtain ⟨defaults?, -, h⟩ := Built.bind_ok h
      cases defaults? with
      | some defaults => exact ⟨_, h⟩
      | none => exact ⟨_, h⟩

theorem Spec.exists_assemble_of_mapping {t : Mapping} {autoOptional : Bool} {o : Options}
    {s : Spec} (h : Spec.mapping t autoOptional o = .ok s) :
    ∃ settings, assemble (.mapping t) settings = .ok s := by
  unfold Spec.mapping at h
  dsimp only at h
  split at h
  · cases h
  · split at h
    · exact ⟨_, h⟩
    · obtain ⟨-, -, h⟩ := Built.bind_ok h
      split at h
      · exact ⟨_, h⟩
      · obtain ⟨defaults?, -, h⟩ := Built.bind_ok h
        cases defaults? with
        | some defaults => exact ⟨_, h⟩
        | none => exact ⟨_, h⟩

/-! ## What builders see to -/

/-- An optional specification has a default that conforms, and cases have no patterns. -/
structure Spec.Sound (s : Spec) : Prop where
  default : s.isOptional = true → ∃ d, s.check s.defaultValue = .ok d
  patternless : ∀ x ∈ s.rule.cases, x.mapping.patterns = []

theorem Spec.throughout_of_assemble {rule : Rule} {settings : Settings} {s : Spec}
    (h : assemble rule settings = .ok s) (parts : ∀ t ∈ rule.specs, t.Throughout Sound)
    (patternless : ∀ x ∈ rule.cases, x.mapping.patterns = []) : s.Throughout Sound := by
  obtain ⟨rfl, hdefault⟩ := assemble_ok_iff.mp h
  refine .intro ⟨hdefault, ?_⟩ ?_
  · rwa [rule.cases_normalize]
  · rwa [rule.specs_normalize]

theorem Spec.Throughout.derive {s t : Spec} {configure : Options → Options}
    (hs : s.Throughout Sound) (h : s.derive configure = .ok t) : t.Throughout Sound :=
  throughout_of_assemble h hs.parts hs.own.patternless

theorem Spec.throughout_of_mapping {t : Mapping} {autoOptional : Bool} {o : Options} {s : Spec}
    (h : Spec.mapping t autoOptional o = .ok s)
    (keys : ∀ r ∈ t.keys, ∀ u ∈ r.slot.specs, u.Throughout Sound)
    (patterns : ∀ r ∈ t.patterns, ∀ u ∈ r.pattern.specs ++ r.type.specs, u.Throughout Sound)
    (patternless : ∀ r ∈ t.keys, ∀ x ∈ r.slot.cases, x.mapping.patterns = []) :
    s.Throughout Sound := by
  obtain ⟨settings, hs⟩ := exists_assemble_of_mapping h
  refine throughout_of_assemble hs (List.forall_mem_append.mpr ⟨?_, ?_⟩) ?_
  · exact List.forall_mem_flatMap.mpr keys
  · exact List.forall_mem_flatMap.mpr patterns
  · exact List.forall_mem_flatMap.mpr patternless

/-! ### Shorthands -/

theorem Base.throughout_of_map {x : Built Spec} {b : Base} (h : x.map Base.spec = .ok b)
    (built : ∀ s, x = .ok s → s.Throughout Spec.Sound) :
    ∀ t ∈ b.specs, t.Throughout Spec.Sound := by
  obtain ⟨s, hs, rfl⟩ := Built.map_ok h
  exact List.forall_mem_singleton.mpr (built s hs)

mutual

theorem Descriptor.throughout_of_toBase : (d : Descriptor) →
    (∀ t ∈ d.specs, t.Throughout Spec.Sound) → ∀ {b}, d.toBase = .ok b →
    ∀ t ∈ b.specs, t.Throughout Spec.Sound
  | .atom a, _, _, h => by
    cases h
    exact List.forall_mem_nil _
  | .spec s, hparts, _, h => by
    cases h
    exact hparts
  | .list types, hparts, _, h => by
    obtain ⟨bases, hbases, h⟩ := Built.bind_ok h
    exact Base.throughout_of_map h fun s hs => Spec.throughout_of_assemble hs
      (throughout_of_toBases types hparts hbases) (List.forall_mem_nil _)
  | .values vs, _, _, h =>
    Base.throughout_of_map h fun s hs => Spec.throughout_of_assemble hs
      (List.forall_mem_nil _) (List.forall_mem_nil _)
  | .union types, hparts, _, h => by
    obtain ⟨bases, hbases, h⟩ := Built.bind_ok h
    exact Base.throughout_of_map h fun s hs => Spec.throughout_of_assemble hs
      (throughout_of_toBases types hparts hbases) (List.forall_mem_nil _)
  | .mapping entries, hparts, _, h => by
    obtain ⟨keys, hkeys, h⟩ := Built.bind_ok h
    obtain ⟨patterns, hpatterns, h⟩ := Built.bind_ok h
    obtain ⟨htypes, hcases⟩ := throughout_of_exactKeys entries hparts hkeys
    exact Base.throughout_of_map h fun s hs => Spec.throughout_of_mapping hs htypes
      (throughout_of_patternKeys entries hparts hpatterns) hcases

theorem throughout_of_toBases : (ds : List Descriptor) →
    (∀ t ∈ shorthandSpecs ds, t.Throughout Spec.Sound) → ∀ {bs}, toBases ds = .ok bs →
    ∀ t ∈ bs.flatMap Base.specs, t.Throughout Spec.Sound
  | [], _, _, h => by
    cases h
    exact List.forall_mem_nil _
  | d :: rest, hparts, _, h => by
    obtain ⟨hd, hrest⟩ := List.forall_mem_append.mp hparts
    obtain ⟨b, hb, h⟩ := Built.bind_ok h
    obtain ⟨bs, hbs, h⟩ := Built.bind_ok h
    cases h
    exact List.forall_mem_append.mpr
      ⟨Descriptor.throughout_of_toBase d hd hb, throughout_of_toBases rest hrest hbs⟩

/-- The keys of a table of entries have types and select nothing. -/
theorem throughout_of_exactKeys : (entries : List SchemaEntry) →
    (∀ t ∈ entrySpecs entries, t.Throughout Spec.Sound) → ∀ {rules}, exactKeys entries = .ok rules →
    (∀ r ∈ rules, ∀ t ∈ r.slot.specs, t.Throughout Spec.Sound) ∧
      ∀ r ∈ rules, ∀ x ∈ r.slot.cases, x.mapping.patterns = []
  | [], _, _, h => by
    cases h
    exact ⟨List.forall_mem_nil _, List.forall_mem_nil _⟩
  | ⟨.value v, type⟩ :: rest, hparts, _, h => by
    obtain ⟨htype, hrest⟩ := List.forall_mem_append.mp hparts
    obtain ⟨b, hb, h⟩ := Built.bind_ok h
    obtain ⟨rules, hrules, h⟩ := Built.bind_ok h
    cases h
    obtain ⟨hspecs, hcases⟩ := throughout_of_exactKeys rest hrest hrules
    have hb : ∀ t ∈ b.specs, t.Throughout Spec.Sound :=
      Descriptor.throughout_of_toBase type htype hb
    exact ⟨List.forall_mem_cons.mpr ⟨hb, hspecs⟩,
      List.forall_mem_cons.mpr ⟨List.forall_mem_nil _, hcases⟩⟩
  | ⟨.pattern _, _⟩ :: rest, hparts, _, h =>
    throughout_of_exactKeys rest (List.forall_mem_append.mp hparts).2 h

theorem throughout_of_patternKeys : (entries : List SchemaEntry) →
    (∀ t ∈ entrySpecs entries, t.Throughout Spec.Sound) →
    ∀ {rules}, patternKeys entries = .ok rules →
    ∀ r ∈ rules, ∀ t ∈ r.pattern.specs ++ r.type.specs, t.Throughout Spec.Sound
  | [], _, _, h => by
    cases h
    exact List.forall_mem_nil _
  | ⟨.value _, _⟩ :: rest, hparts, _, h =>
    throughout_of_patternKeys rest (List.forall_mem_append.mp hparts).2 h
  | ⟨.pattern p, type⟩ :: rest, hparts, _, h => by
    obtain ⟨hentry, hrest⟩ := List.forall_mem_append.mp hparts
    obtain ⟨hpattern, htype⟩ := List.forall_mem_append.mp hentry
    obtain ⟨pattern, hp, h⟩ := Built.bind_ok h
    obtain ⟨b, hb, h⟩ := Built.bind_ok h
    obtain ⟨rules, hrules, h⟩ := Built.bind_ok h
    cases h
    have hhead : ∀ t ∈ pattern.specs ++ b.specs, t.Throughout Spec.Sound :=
      List.forall_mem_append.mpr ⟨Descriptor.throughout_of_toBase p hpattern hp,
        Descriptor.throughout_of_toBase type htype hb⟩
    exact List.forall_mem_cons.mpr ⟨hhead, throughout_of_patternKeys rest hrest hrules⟩

end

/-! ### Declarations of mappings -/

namespace Schema

theorem patterns_of_conditional {cases : List (Value × Descriptor)} {optional : Bool}
    {default : Option Value} {applyDefaultSpec : Bool} {c : Conditional}
    (h : conditional cases optional default applyDefaultSpec = .ok c) :
    ∀ x ∈ c.cases, x.mapping.patterns = [] := by
  obtain ⟨raw, hraw, h⟩ := Built.bind_ok h
  intro x hx
  obtain ⟨e, -, he⟩ := Built.mem_mapM hraw x (Conditional.mem_of_ofCases h x hx)
  obtain ⟨b, -, hb⟩ := Built.bind_ok he
  exact Case.patterns_of_ofBase hb

theorem KeySlot.throughout_of_build {s : KeySlot} {slot : Slot}
    (parts : ∀ t ∈ s.specs, t.Throughout Spec.Sound) (declared : s.Declared)
    (h : s.build = .ok slot) :
    (∀ t ∈ slot.specs, t.Throughout Spec.Sound) ∧ ∀ x ∈ slot.cases, x.mapping.patterns = [] := by
  cases s with
  | type d =>
    obtain ⟨b, hb, rfl⟩ := Built.map_ok h
    exact ⟨d.throughout_of_toBase parts hb, List.forall_mem_nil _⟩
  | conditional c =>
    cases h
    obtain ⟨cases, optional, default, applyDefaultSpec, hc⟩ := declared
    exact ⟨parts, patterns_of_conditional hc⟩

theorem MappingDecl.throughout_of_build {d : MappingDecl} {s : Spec}
    (parts : ∀ t ∈ d.specs, t.Throughout Spec.Sound) (declared : ∀ e ∈ d.keys, e.2.Declared)
    (h : d.build = .ok s) : s.Throughout Spec.Sound := by
  obtain ⟨hkeys, hpatterns⟩ := List.forall_mem_append.mp parts
  rw [List.forall_mem_flatMap] at hkeys hpatterns
  obtain ⟨keys, hbuilt, h⟩ := Built.bind_ok h
  obtain ⟨patterns, hbuilt', h⟩ := Built.bind_ok h
  have hslots : ∀ r ∈ keys, (∀ t ∈ r.slot.specs, t.Throughout Spec.Sound) ∧
      ∀ x ∈ r.slot.cases, x.mapping.patterns = [] := by
    intro r hr
    obtain ⟨e, he, hbuild⟩ := Built.mem_mapM hbuilt r hr
    obtain ⟨slot, hslot, rfl⟩ := Built.map_ok hbuild
    exact KeySlot.throughout_of_build (hkeys e he) (declared e he) hslot
  refine Spec.throughout_of_mapping h (fun r hr => (hslots r hr).1) (fun r hr => ?_)
    fun r hr => (hslots r hr).2
  obtain ⟨e, he, hbuild⟩ := Built.mem_mapM hbuilt' r hr
  obtain ⟨pattern, hpattern, hbuild⟩ := Built.bind_ok hbuild
  obtain ⟨type, htype, hbuild⟩ := Built.bind_ok hbuild
  cases hbuild
  obtain ⟨hfirst, hsecond⟩ := List.forall_mem_append.mp (hpatterns e he)
  exact List.forall_mem_append.mpr
    ⟨e.1.throughout_of_toBase hfirst hpattern, e.2.throughout_of_toBase hsecond htype⟩

end Schema

/-! ### Every builder -/

/-- What a builder returns is sound throughout. -/
theorem Spec.Buildable.sound {s : Spec} (h : s.Buildable) : s.Throughout Sound := by
  induction h with
  | type h | refined h =>
    obtain ⟨atom, -, h⟩ := Built.bind_ok h
    exact throughout_of_assemble h (List.forall_mem_nil _) (List.forall_mem_nil _)
  | enum h =>
    unfold Schema.enum at h
    exact throughout_of_assemble h (List.forall_mem_nil _) (List.forall_mem_nil _)
  | union _ h ih | iter _ h ih =>
    obtain ⟨types, htypes, h⟩ := Built.bind_ok h
    exact throughout_of_assemble h (throughout_of_toBases _ ih htypes) (List.forall_mem_nil _)
  | seq _ h ih =>
    obtain ⟨positions, hpositions, h⟩ := Built.bind_ok h
    obtain ⟨settings, h⟩ := exists_assemble_of_seq h
    exact throughout_of_assemble h (throughout_of_toBases _ ih hpositions) (List.forall_mem_nil _)
  | mapping _ declared h ih => exact Schema.MappingDecl.throughout_of_build ih declared h
  | shorthand _ h ih => exact Descriptor.throughout_of_toBase _ ih h _ List.mem_cons_self
  | derived _ h ih => exact ih.derive h
  | constrained _ h ih => exact ih.derive h

/-- Every case below a table of a sound specification is without patterns. -/
theorem Spec.Throughout.patternless {settings : Settings} {t : Mapping}
    (h : (⟨settings, .mapping t⟩ : Spec).Throughout Sound) : Patternless t.keys := by
  intro r hr u hu
  -- One step down leads to a case, which is a part of the specification and sound throughout again.
  induction hu generalizing settings t with
  | case hx => exact h.own.patternless _ (List.mem_flatMap.mpr ⟨_, hr, hx⟩)
  | @deeper key c x r u hx hr' _ ih =>
    have hspec : x.spec ∈ (Rule.mapping t).specs :=
      List.mem_append_left _ (List.mem_flatMap.mpr ⟨_, hr, List.mem_map_of_mem hx⟩)
    exact ih (h.parts _ hspec) hr'

end Conformance
