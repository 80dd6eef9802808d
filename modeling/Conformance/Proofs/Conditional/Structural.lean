import Conformance.Proofs.Conditional.Footprint

/-! # Tables without post rules

What is left of a table without its post rules and those of its cases has the same keys and selects
the same cases.
-/

namespace Conformance

open Value (Entries)

mutual

/-- A table and the tables of its cases without their post rules. -/
def Mapping.structural : Mapping → Mapping
  | ⟨keys, patterns, _, name, unhandledOk⟩ => ⟨structuralKeys keys, patterns, [], name, unhandledOk⟩

def structuralKeys : List KeyRule → List KeyRule
  | [] => []
  | ⟨key, slot⟩ :: rest => ⟨key, slot.structural⟩ :: structuralKeys rest

def Slot.structural : Slot → Slot
  | .type b => .type b
  | .conditional c => .conditional c.structural

def Conditional.structural : Conditional → Conditional
  | ⟨cases, optional, default, applyDefaultSpec⟩ =>
    ⟨structuralCases cases, optional, default, applyDefaultSpec⟩

def structuralCases : List Case → List Case
  | [] => []
  | ⟨value, settings, mapping⟩ :: rest =>
    ⟨value, settings, mapping.structural⟩ :: structuralCases rest

end

mutual

theorem structural_structural : (t : Mapping) → t.structural.structural = t.structural
  | ⟨keys, _, _, _, _⟩ => by
    rw [Mapping.structural, Mapping.structural, structuralKeys_structuralKeys keys]

theorem structuralKeys_structuralKeys : (keys : List KeyRule) →
    structuralKeys (structuralKeys keys) = structuralKeys keys
  | [] => rfl
  | ⟨_, slot⟩ :: rest => by
    rw [structuralKeys, structuralKeys, slot_structural_structural slot,
      structuralKeys_structuralKeys rest]

theorem slot_structural_structural : (slot : Slot) → slot.structural.structural = slot.structural
  | .type _ => rfl
  | .conditional ⟨cases, _, _, _⟩ => by
    simp only [Slot.structural, Conditional.structural, structuralCases_structuralCases cases]

theorem structuralCases_structuralCases : (cases : List Case) →
    structuralCases (structuralCases cases) = structuralCases cases
  | [] => rfl
  | ⟨_, _, mapping⟩ :: rest => by
    rw [structuralCases, structuralCases, structural_structural mapping,
      structuralCases_structuralCases rest]

end

mutual

theorem patternless_structuralKeys : (keys : List KeyRule) →
    patternless (structuralKeys keys) = patternless keys
  | [] => rfl
  | ⟨_, slot⟩ :: rest => by
    rw [structuralKeys, patternless, patternless, slot_patternless_structural slot,
      patternless_structuralKeys rest]

theorem slot_patternless_structural : (slot : Slot) →
    slot.structural.patternless = slot.patternless
  | .type _ => rfl
  | .conditional ⟨cases, _, _, _⟩ => patternlessCases_structuralCases cases

theorem patternlessCases_structuralCases : (cases : List Case) →
    patternlessCases (structuralCases cases) = patternlessCases cases
  | [] => rfl
  | ⟨_, _, ⟨keys, _, _, _, _⟩⟩ :: rest => by
    rw [structuralCases, Mapping.structural, patternlessCases, patternlessCases,
      patternless_structuralKeys keys, patternlessCases_structuralCases rest]

end

@[simp] theorem Mapping.post_structural (t : Mapping) : t.structural.post = [] := by
  cases t
  rfl

@[simp] theorem Mapping.patterns_structural (t : Mapping) :
    t.structural.patterns = t.patterns := by
  cases t
  rfl

@[simp] theorem Mapping.keys_structural (t : Mapping) :
    t.structural.keys = structuralKeys t.keys := by
  cases t
  rfl

@[simp] theorem Mapping.unhandledOk_structural (t : Mapping) :
    t.structural.unhandledOk = t.unhandledOk := by
  cases t
  rfl

def Case.structural (x : Case) : Case := { x with mapping := x.mapping.structural }

theorem structuralCases_eq (cases : List Case) : structuralCases cases = cases.map .structural := by
  induction cases with
  | nil => rfl
  | cons x rest ih =>
    obtain ⟨value, settings, mapping⟩ := x
    rw [structuralCases, ih]
    rfl

theorem map_structuralKeys {α : Type} (f : Value → α) (keys : List KeyRule) :
    (structuralKeys keys).map (fun r => f r.key) = keys.map fun r => f r.key := by
  induction keys with
  | nil => rfl
  | cons r rest ih =>
    obtain ⟨key, slot⟩ := r
    rw [structuralKeys, List.map_cons, List.map_cons, ih]

namespace Conditional

variable (c : Conditional)

theorem selected_structural (v? : Option Value) :
    c.structural.selected? v? = (c.selected? v?).map .structural := by
  obtain ⟨cases, optional, default, applyDefaultSpec⟩ := c
  rw [structural, selected?, selected?, Option.map_bind]
  refine Option.bind_congr fun v _ => ?_
  simp only [case?, structuralCases_eq, List.find?_map]
  rfl

theorem unselected_structural (v? : Option Value) :
    c.structural.unselected? v? = c.unselected? v? := by
  obtain ⟨cases, optional, default, applyDefaultSpec⟩ := c
  cases v? with
  | none => rfl
  | some v =>
    simp only [structural, unselected?, structuralCases_eq, List.map_map]
    rfl

theorem concluded_structural (v? : Option Value) : c.structural.concluded v? = c.concluded v? := by
  funext e?
  obtain ⟨cases, optional, default, applyDefaultSpec⟩ := c
  cases v? <;> cases e? <;> rfl

theorem isOk_concluded (v? : Option Value) (e? : Option Invalid) :
    (c.concluded v? e?).isOk = e?.isNone := by
  cases v? <;> cases e? <;> rfl

end Conditional

end Conformance
