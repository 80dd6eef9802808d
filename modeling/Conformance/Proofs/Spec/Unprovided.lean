import Conformance.Constraint.Factory
import Conformance.Proofs.Mapping.Failures
import Conformance.Proofs.Spec.Buildable

/-! # Values that are not provided

The default of an optional specification has been checked when the specification was built, and it
is what an unset value and an absent key are replaced by. So neither of them is ever refused.
-/

namespace Conformance

open Value (Entries)

section Absent

variable {s : Spec} {d key : Value} {m : Entries}

theorem Base.provided_none (optional : s.isOptional = true)
    (accepted : s.check s.defaultValue = .ok d) : (Base.spec s).provided? none = some (.ok d) := by
  rw [provided?, fallback?, if_pos optional, accepted]

theorem KeyRule.step_unprovided (optional : s.isOptional = true)
    (accepted : s.check s.defaultValue = .ok d) (absent : Entries.get? key m = none) (p : Pass) :
    (⟨key, .type (.spec s)⟩ : KeyRule).step m p = .ok ⟨p.progress.put key d, p.failures⟩ := by
  change (typed (key, .spec s)).step m p = _
  rw [step, verdict_type, absent, Base.provided_none optional accepted, Progress.claimPresent,
    absent]
  rfl

theorem KeyRule.not_reports_unprovided (optional : s.isOptional = true)
    (accepted : s.check s.defaultValue = .ok d) (absent : Entries.get? key m = none)
    (f : Failure) : ¬ (⟨key, .type (.spec s)⟩ : KeyRule).Reports m f := by
  intro h
  have hfailure : declaredFailure? m (key, .spec s) = some f := reports_typed h
  rw [declaredFailure?, absent, Base.provided_none optional accepted] at hfailure
  cases hfailure

/-- No failure that a table can report is about an absent key of an optional type. -/
theorem Mapping.unlocated_of_unprovided {t : Mapping} (optional : s.isOptional = true)
    (accepted : s.check s.defaultValue = .ok d) (absent : Entries.get? key m = none)
    (declared : ∀ r ∈ t.keys, r.key = key → r.slot = .type (.spec s)) {f : Failure}
    (h : t.Reports m f) : f.location ≠ some (.key key) := by
  cases h with
  | @declared r _ hr hf =>
    intro hlocation
    have hkey : r.key = key := by
      rw [hf.location] at hlocation
      cases hlocation
      rfl
    obtain ⟨_, slot⟩ := r
    obtain rfl : slot = .type (.spec s) := declared _ hr hkey
    subst hkey
    exact KeyRule.not_reports_unprovided optional accepted absent f hf
  | claimed hclaimed =>
    obtain ⟨v, e, hv, -, rfl⟩ := claimedFailure_eq_some_iff.mp hclaimed
    rintro ⟨⟩
    rw [absent] at hv
    cases hv
  | general message => exact nofun

end Absent

/-- An optional specification that has been built accepts its default, and accepts every unset value
as the default. A pass writes it for an absent key of this type, and whatever else a run finds
wrong with a mapping, it is not this key. -/
theorem check_unprovided {s : Spec} (built : s.Buildable) (optional : s.isOptional = true) :
    ∃ d, s.check s.defaultValue = .ok d ∧
      (∀ u, s.settings.unset.holds u = true → s.check u = .ok d) ∧
      (∀ key rest m p, Entries.get? key m = none →
        runKeys (⟨key, .type (.spec s)⟩ :: rest) m p =
          runKeys rest m ⟨p.progress.put key d, p.failures⟩) ∧
      ∀ (t : Mapping) (unhandledOk : Bool) (key : Value) (m : Entries) (p q : Progress)
        (e : Invalid), Entries.get? key m = none →
        (∀ r ∈ t.keys, r.key = key → r.slot = .type (.spec s)) →
        t.run unhandledOk m p = .ok (some e, q) →
        ∀ f ∈ e.failures, f.location ≠ some (.key key) := by
  obtain ⟨d, hd⟩ := built.sound.own.default optional
  refine ⟨d, hd, ?_, ?_, ?_⟩
  · intro u hu
    rw [Spec.check_of_unset optional hu, hd]
  · intro key rest m p absent
    rw [runKeys_cons, KeyRule.step_unprovided optional hd absent]
    rfl
  · intro t unhandledOk key m p q e absent declared hrun f hf
    have hreports : t.Reports m f := Mapping.reported_of_run hrun f hf
    exact Mapping.unlocated_of_unprovided optional hd absent declared hreports

namespace Tags

def plain : Spec := ⟨⟨false, .value (.list []), .falsy, []⟩, .iter [.atom (.kind .str)] .set⟩

def optional : Spec := ⟨{ plain.settings with optional := true }, plain.rule⟩

/-- At least two texts if any are provided, which the default does not contain. -/
def spec : Spec := ⟨{ optional.settings with constraints := [.minLength ⟨[]⟩ 2] }, plain.rule⟩

theorem buildable : spec.Buildable := by
  have hplain : Schema.iter [.atom (.kind .str)] .set {} = .ok plain := rfl
  have hoptional : (plain.derive fun o => { o with optional := some true }) = .ok optional := rfl
  have hspec : optional.addConstraints [.minLength ⟨[]⟩ 2] = .ok spec := rfl
  exact .constrained (.derived (.iter (List.forall_mem_nil _) hplain) hoptional) hspec

end Tags

theorem check_unprovided_tags : Tags.spec.check .null = .ok (.set []) := by
  obtain ⟨d, hd, hunset, -, -⟩ := check_unprovided Tags.buildable rfl
  obtain rfl : d = .set [] := (Outcome.ok.inj hd).symm
  exact hunset .null rfl

end Conformance
