import Conformance.Spec
import Mathlib.Data.List.Basic

/-! # Specifications that only fill in and collect

A plain specification changes a value in two ways alone. It puts a default where a value is not
provided, and it gathers elements into a collection of its own kind.
-/

namespace Conformance

/-! ## The keys that rules may write -/

mutual

/-- The keys declared by a table and by all cases that its conditionals may select. -/
def Mapping.names : Mapping → List Value
  | ⟨keys, _, _, _, _⟩ => keyNames keys

def keyNames : List KeyRule → List Value
  | [] => []
  | ⟨key, slot⟩ :: rest => key :: slot.names ++ keyNames rest

def Slot.names : Slot → List Value
  | .type _ => []
  | .conditional c => c.names

def Conditional.names : Conditional → List Value
  | ⟨cases, _, _, _⟩ => caseNames cases

def caseNames : List Case → List Value
  | [] => []
  | ⟨_, _, mapping⟩ :: rest => mapping.names ++ caseNames rest

end

/-! ## Plain parts -/

def Unset.IsPlain : Unset → Prop
  | .custom _ => False
  | _ => True

def Base.IsAtom : Base → Prop
  | .atom _ => True
  | .spec _ => False

def Post.IsTest (p : Post) : Prop := ∃ holds message, p.action = .test holds message

mutual

def Base.Plain : Base → Prop
  | .atom _ => True
  | .spec s => s.Plain

/-- An optional table must not let keys through that it does not write. -/
def Spec.Plain : Spec → Prop
  | ⟨settings, rule⟩ =>
    settings.unset.IsPlain ∧ rule.Plain ∧
      ∀ t, rule = .mapping t → settings.optional = true → t.unhandledOk = false

def Rule.Plain : Rule → Prop
  | .scalar _ canonicalizer => canonicalizer = none
  | .enum _ canonicalizer => canonicalizer = none
  | .union types => ∀ b ∈ types, b.IsAtom
  | .iter [b] _ => b.Plain
  | .iter types _ => ∀ b ∈ types, b.IsAtom
  | .seq positions container => container ≠ .set ∧ PlainTypes positions
  | .mapping t => t.Plain

def PlainTypes : List Base → Prop
  | [] => True
  | b :: rest => b.Plain ∧ PlainTypes rest

def Mapping.Plain : Mapping → Prop
  | ⟨keys, patterns, post, _, _⟩ =>
    PlainKeys keys ∧ PlainPatterns patterns ∧ ∀ p ∈ post, p.IsTest

/-- No key is declared by two rules that may apply to one mapping. -/
def PlainKeys : List KeyRule → Prop
  | [] => True
  | ⟨key, slot⟩ :: rest =>
    slot.Plain ∧ key ∉ slot.names ∧ (key :: slot.names).Disjoint (keyNames rest) ∧ PlainKeys rest

def Slot.Plain : Slot → Prop
  | .type b => b.Plain
  | .conditional c => c.Plain

/-- A default that is a case applies that case, whether the key is absent or holds the default. -/
def Conditional.Plain : Conditional → Prop
  | ⟨cases, optional, default, applyDefaultSpec⟩ =>
    PlainCases cases ∧
      (optional = true → applyDefaultSpec = false → default ∉ cases.map Case.value)

/-- A case is never built with patterns. -/
def PlainCases : List Case → Prop
  | [] => True
  | ⟨_, _, mapping⟩ :: rest => mapping.patterns = [] ∧ mapping.Plain ∧ PlainCases rest

def PlainPatterns : List PatternRule → Prop
  | [] => True
  | ⟨pattern, type⟩ :: rest => pattern.IsAtom ∧ type.Plain ∧ PlainPatterns rest

end

end Conformance
