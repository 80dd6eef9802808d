import Conformance.Constraint.Factory
import Conformance.Proofs.Spec.Meaning
import Conformance.Spec.Build

/-! # Equal specifications are interchangeable -/

namespace Conformance

namespace Spec

variable (shared : Sharing)

/-- Equality compares what is left when each label has been given a function. -/
theorem sameBy_eq_true_iff (s t : Spec) :
    s.sameBy shared t = true ↔ s.interpret default = t.interpret default :=
  sameBy_iff shared default s t

theorem sameBy_eq_beq (s t : Spec) : s.sameBy shared t = (s == t) := by
  rw [Bool.eq_iff_iff, sameBy_eq_true_iff]
  exact (sameBy_eq_true_iff .nothing s t).symm

theorem sameBy_self (s : Spec) : s.sameBy shared s = true :=
  (sameBy_eq_true_iff shared s s).mpr rfl

theorem sameBy_comm (s t : Spec) : s.sameBy shared t = t.sameBy shared s := by
  rw [Bool.eq_iff_iff, sameBy_eq_true_iff, sameBy_eq_true_iff]
  exact eq_comm

theorem sameBy_trans {s t u : Spec} (hst : s.sameBy shared t = true)
    (htu : t.sameBy shared u = true) : s.sameBy shared u = true := by
  rw [sameBy_eq_true_iff] at hst htu ⊢
  exact hst.trans htu

variable {shared}

/-- Where every label stands for one function, equality leaves nothing out. -/
theorem eq_of_sameBy {μ : Meaning} {s t : Spec} (hs : s.Follows μ) (ht : t.Follows μ)
    (h : s.sameBy shared t = true) : s = t := by
  have hinterpret : s.interpret μ = t.interpret μ := (sameBy_iff shared μ s t).mp h
  calc s = s.interpret μ := hs.symm
    _ = t.interpret μ := hinterpret
    _ = t := ht

end Spec

/-- Equality is an equivalence that does not depend on what is known to be shared. Where functions
of one label are one function, nothing that can be asked of equal specifications tells them apart:
neither what they say of themselves nor what a check gives, down to the last failure. -/
theorem same_interchangeable (shared : Sharing) :
    (∀ s t : Spec, s.sameBy shared t = (s == t)) ∧
    (∀ s : Spec, s.sameBy shared s = true) ∧
    (∀ s t : Spec, s.sameBy shared t = t.sameBy shared s) ∧
    (∀ s t u : Spec, s.sameBy shared t = true → t.sameBy shared u = true →
      s.sameBy shared u = true) ∧
    ∀ (μ : Meaning) (s t : Spec), s.Follows μ → t.Follows μ → s.sameBy shared t = true →
      s.typeName = t.typeName ∧ s.isOptional = t.isOptional ∧
      s.defaultValue = t.defaultValue ∧ s.settings.unset = t.settings.unset ∧
      ∀ v, s.check v = t.check v := by
  refine ⟨Spec.sameBy_eq_beq shared, Spec.sameBy_self shared, Spec.sameBy_comm shared,
    fun _ _ _ => Spec.sameBy_trans shared, ?_⟩
  intro μ s t hs ht hsame
  obtain rfl : s = t := Spec.eq_of_sameBy hs ht hsame
  exact ⟨rfl, rfl, rfl, rfl, fun _ => rfl⟩

namespace Luggage

def text : Spec := ⟨⟨false, .value .null, .empty, []⟩, .scalar (.kind .str) none⟩

/-- The texts of all luggage are one specification. -/
def shared : Sharing where
  known
    | ⟨⟨false, .value .null, .empty, []⟩, .scalar (.kind .str) none⟩,
      ⟨⟨false, .value .null, .empty, []⟩, .scalar (.kind .str) none⟩ => true
    | _, _ => false
  eq_of_known := by
    intro s t h
    split at h
    · rfl
    · cases h

/-- Label 1 is for lengths of two and more, label 2 for what counts as unset. -/
def meaning : Meaning where
  holds l := if l = ⟨[1]⟩ then (Constraint.minLength l 2).test.run else (· == .bool false)
  canonicalize _ := .ok
  produce _ _ := .set [.str "a", .str "b"]
  update _ := .list
  passes _ _ := true

def plain : Spec :=
  ⟨⟨false, .producer ⟨⟨[3]⟩, meaning.produce ⟨[3]⟩⟩, .custom ⟨⟨[2]⟩, meaning.holds ⟨[2]⟩⟩, []⟩,
    .iter [.spec text] .set⟩

def early : Built Spec :=
  (plain.derive fun o => { o with optional := some true }).bind
    (·.addConstraints [.minLength ⟨[1]⟩ 2])

def late : Built Spec :=
  (plain.addConstraints [.minLength ⟨[1]⟩ 2]).bind
    (·.derive fun o => { o with optional := some true })

def spec : Spec :=
  ⟨{ plain.settings with optional := true, constraints := [.minLength ⟨[1]⟩ 2] }, plain.rule⟩

theorem follows : spec.Follows meaning := rfl

end Luggage

theorem same_interchangeable_luggage :
    ∃ s t, Luggage.early = .ok s ∧ Luggage.late = .ok t ∧ s.sameBy Luggage.shared t = true ∧
      s.typeName = t.typeName ∧ s.defaultValue = t.defaultValue ∧ ∀ v, s.check v = t.check v := by
  have hsame : Luggage.spec.sameBy Luggage.shared Luggage.spec = true := rfl
  refine ⟨Luggage.spec, Luggage.spec, rfl, rfl, hsame, ?_⟩
  obtain ⟨-, -, -, -, hequal⟩ := same_interchangeable Luggage.shared
  obtain ⟨hname, -, hdefault, -, hcheck⟩ :=
    hequal Luggage.meaning _ _ Luggage.follows Luggage.follows hsame
  exact ⟨hname, hdefault, hcheck⟩

end Conformance
