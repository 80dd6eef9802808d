import Conformance.Spec

/-! # Equality of specifications

Two specifications are the same if they are built alike, where user functions count by their label.
What is known to be shared is not looked into.
-/

namespace Conformance

structure Sharing where
  known : Spec → Spec → Bool
  eq_of_known : ∀ {s t : Spec}, known s t = true → s = t

def Sharing.nothing : Sharing := ⟨fun _ _ => false, Bool.noConfusion⟩

section

variable (shared : Sharing)

mutual

def Base.sameBy : Base → Base → Bool
  | .atom a, .atom b => a == b
  | .spec s, .spec t => s.sameBy t
  | _, _ => false
termination_by structural x => x

def Spec.sameBy : Spec → Spec → Bool
  | ⟨s, r⟩, ⟨t, q⟩ => shared.known ⟨s, r⟩ ⟨t, q⟩ || (s.same t && r.sameBy q)
termination_by structural x => x

def Rule.sameBy : Rule → Rule → Bool
  | .scalar a c, .scalar b d => a == b && Canonicalizer.same c d
  | .enum vs c, .enum ws d => vs == ws && Canonicalizer.same c d
  | .union ts, .union us => sameTypes ts us
  | .iter ts c, .iter us d => sameTypes ts us && c == d
  | .seq ts c, .seq us d => sameTypes ts us && c == d
  | .mapping m, .mapping n => m.sameBy n
  | _, _ => false
termination_by structural x => x

def sameTypes : List Base → List Base → Bool
  | [], [] => true
  | b :: bs, c :: cs => b.sameBy c && sameTypes bs cs
  | _, _ => false
termination_by structural x => x

def Mapping.sameBy : Mapping → Mapping → Bool
  | ⟨keys, patterns, post, name, ok⟩, ⟨keys', patterns', post', name', ok'⟩ =>
    sameKeys keys keys' && samePatterns patterns patterns' && Post.sameAll post post'
      && name == name' && ok == ok'
termination_by structural x => x

def sameKeys : List KeyRule → List KeyRule → Bool
  | [], [] => true
  | ⟨k, s⟩ :: rest, ⟨k', s'⟩ :: rest' => k == k' && s.sameBy s' && sameKeys rest rest'
  | _, _ => false
termination_by structural x => x

def Slot.sameBy : Slot → Slot → Bool
  | .type b, .type c => b.sameBy c
  | .conditional c, .conditional d => c.sameBy d
  | _, _ => false
termination_by structural x => x

def Conditional.sameBy : Conditional → Conditional → Bool
  | ⟨cases, optional, default, apply⟩, ⟨cases', optional', default', apply'⟩ =>
    sameCases cases cases' && optional == optional' && default == default' && apply == apply'
termination_by structural x => x

/-- The specification of a case may be shared like any other. -/
def sameCases : List Case → List Case → Bool
  | [], [] => true
  | ⟨v, s, m⟩ :: rest, ⟨v', s', m'⟩ :: rest' =>
    v == v' && (shared.known ⟨s, .mapping m⟩ ⟨s', .mapping m'⟩ || (s.same s' && m.sameBy m'))
      && sameCases rest rest'
  | _, _ => false
termination_by structural x => x

def samePatterns : List PatternRule → List PatternRule → Bool
  | [], [] => true
  | ⟨p, t⟩ :: rest, ⟨p', t'⟩ :: rest' => p.sameBy p' && t.sameBy t' && samePatterns rest rest'
  | _, _ => false
termination_by structural x => x

end

end

/-- Equality where nothing is known to be shared. -/
def Spec.same (s t : Spec) : Bool := s.sameBy .nothing t

instance : BEq Spec := ⟨Spec.same⟩

instance : BEq Constraint := ⟨Constraint.same⟩

end Conformance
