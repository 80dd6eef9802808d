import Conformance.Spec.Build

/-! # What a successful check has gone through -/

namespace Conformance

theorem Outcome.bind_ok_iff {α β : Type} {x : Outcome α} {f : α → Outcome β} {b : β} :
    x.bind f = .ok b ↔ ∃ a, x = .ok a ∧ f a = .ok b := by
  cases x <;> simp [Outcome.bind]

theorem Constraint.enforce_ok_iff {cs : List Constraint} {v w : Value} :
    Constraint.enforce cs v = .ok w ↔ w = v ∧ ∀ c ∈ cs, c.holds v = true := by
  rw [← Constraint.violation?_eq_none_iff, Constraint.enforce]
  cases Constraint.violation? cs v <;> simp [eq_comm]

/-- Constraints let a value pass or not, and never change it. -/
theorem Settings.enforce_ok_iff {s : Settings} {v w : Value} :
    s.enforce v = .ok w ↔
      w = v ∧ (s.replaces v = true ∨ ∀ c ∈ s.constraints, c.holds v = true) := by
  rw [Settings.enforce]
  split
  · next h =>
    rw [Outcome.ok.injEq, eq_comm]
    exact (and_iff_left (.inl h)).symm
  · next h => simp [h, Constraint.enforce_ok_iff]

theorem Settings.enforce_ne_defect (s : Settings) (v : Value) (d : Defect) :
    s.enforce v ≠ .defect d := by
  intro h
  simp only [Settings.enforce, Constraint.enforce] at h
  split at h
  · cases h
  · split at h <;> cases h

theorem Settings.enforce_of_unconstrained {s : Settings} (h : s.constraints = []) (v : Value) :
    s.enforce v = .ok v :=
  Settings.enforce_ok_iff.mpr ⟨rfl, .inr (h ▸ List.forall_mem_nil _)⟩

theorem Settings.given_of_kept {s : Settings} {v : Value} (h : s.replaces v = false) :
    s.given v = v := by
  simp [Settings.given, h]

theorem Settings.given_of_replaced {s : Settings} {v : Value} (h : s.replaces v = true) :
    s.given v = s.default.produce := by
  simp [Settings.given, h]

theorem Settings.given_default (s : Settings) : s.given s.default.produce = s.default.produce := by
  simp [Settings.given]

theorem Settings.replaces_of_required {s : Settings} (h : s.optional = false) (v : Value) :
    s.replaces v = false := by
  simp [Settings.replaces, h]

/-- Structure, constraints and canonical form, in this order. -/
theorem Spec.check_ok_iff {settings : Settings} {rule : Rule} {v c : Value} :
    (⟨settings, rule⟩ : Spec).check v = .ok c ↔
      ∃ w, rule.check (settings.given v) = .ok w ∧
        (settings.replaces w = true ∨ ∀ k ∈ settings.constraints, k.holds w = true) ∧
        rule.canonicalize w = .ok c := by
  simp only [Spec.check, Outcome.bind_ok_iff, Settings.enforce_ok_iff]
  constructor
  · rintro ⟨_, ⟨w, hw, rfl, hk⟩, hc⟩
    exact ⟨_, hw, hk, hc⟩
  · rintro ⟨w, hw, hk, hc⟩
    exact ⟨w, ⟨w, hw, rfl, hk⟩, hc⟩

/-- Without constraints and canonicalizer the structure alone decides. -/
theorem Spec.checkGiven_of_plain {settings : Settings} {rule : Rule}
    (unconstrained : settings.constraints = []) (canonical : ∀ w, rule.canonicalize w = .ok w)
    (v : Value) : (⟨settings, rule⟩ : Spec).checkGiven v = rule.check v := by
  rw [checkGiven]
  cases rule.check v with
  | ok w =>
    rw [Outcome.bind, Settings.enforce_of_unconstrained unconstrained]
    exact canonical w
  | invalid e => rfl
  | defect d => rfl

/-- A value of the wrong structure is refused for its structure. -/
theorem Spec.check_of_rule_invalid {settings : Settings} {rule : Rule} {v : Value} {e : Invalid}
    (h : rule.check (settings.given v) = .invalid e) :
    (⟨settings, rule⟩ : Spec).check v = .invalid e := by
  rw [Spec.check, h]
  rfl

/-- A mapping that is not replaced goes through the rules as it is given. -/
theorem Spec.rule_of_check_mapping {settings : Settings} {t : Mapping} {m : Value.Entries}
    {out : Value} (given : settings.replaces (.map m) = false)
    (h : (⟨settings, .mapping t⟩ : Spec).check (.map m) = .ok out) :
    (Rule.mapping t).check (.map m) = .ok out := by
  obtain ⟨w, hw, -, hc⟩ := Spec.check_ok_iff.mp h
  rw [Settings.given_of_kept given] at hw
  rw [hw]
  exact hc

/-! ## Defaults -/

theorem Spec.check_default (s : Spec) : s.check s.defaultValue = s.checkGiven s.defaultValue := by
  rw [Spec.check_eq_checkGiven]
  exact congrArg s.checkGiven s.settings.given_default

/-- An unset value of an optional specification is checked like the default. -/
theorem Spec.check_of_unset {s : Spec} {u : Value} (optional : s.isOptional = true)
    (unset : s.settings.unset.holds u = true) : s.check u = s.check s.defaultValue := by
  rw [Spec.check_default, Spec.check_eq_checkGiven]
  exact congrArg s.checkGiven
    (Settings.given_of_replaced (Bool.and_eq_true_iff.mpr ⟨optional, unset⟩))

/-- Building brings rule and settings into agreement, and succeeds if the default conforms where
there is need of one. -/
theorem Spec.assemble_ok_iff {rule : Rule} {settings : Settings} {s : Spec} :
    assemble rule settings = .ok s ↔
      s = ⟨(rule.normalize settings).2, (rule.normalize settings).1⟩ ∧
        (s.isOptional = true → ∃ w, s.check s.defaultValue = .ok w) := by
  simp only [assemble]
  generalize rule.normalize settings = normal
  obtain ⟨rule', settings'⟩ := normal
  dsimp only
  by_cases hoptional : settings'.optional = true
  · rw [if_pos hoptional]
    constructor
    · intro h
      cases hc : checkGiven ⟨settings', rule'⟩ (defaultValue ⟨settings', rule'⟩) with
      | ok w =>
        rw [hc] at h
        cases h
        exact ⟨rfl, fun _ => ⟨w, (check_default _).trans hc⟩⟩
      | invalid e =>
        rw [hc] at h
        cases h
      | defect d =>
        rw [hc] at h
        cases h
    · rintro ⟨rfl, h⟩
      obtain ⟨w, hw⟩ := h hoptional
      rw [← check_default, hw]
      rfl
  · rw [if_neg hoptional, Except.ok.injEq, eq_comm]
    refine (and_iff_left_of_imp ?_).symm
    rintro rfl ho
    exact absurd ho hoptional

/-! ## Required mappings -/

def Settings.required : Settings := ⟨false, .value (.map []), .falsy, []⟩

section Required

variable {settings : Settings} {t : Mapping} {m : Value.Entries}

/-- A required mapping is run on what is given, and then meets its constraints. -/
theorem Spec.check_mapping_eq (required : settings.optional = false) :
    (⟨settings, .mapping t⟩ : Spec).check (.map m) =
      (t.run t.unhandledOk m (.start m)).close.bind settings.enforce := by
  have hgiven : settings.given (.map m) = .map m :=
    Settings.given_of_kept (Settings.replaces_of_required required _)
  have hrule : (Rule.mapping t).check (.map m) = (t.run t.unhandledOk m (.start m)).close := rfl
  simp only [Spec.check, hgiven, hrule]
  cases (t.run t.unhandledOk m (.start m)).close.bind settings.enforce <;> rfl

theorem Spec.check_mapping_ok_iff (required : settings.optional = false) {out : Value} :
    (⟨settings, .mapping t⟩ : Spec).check (.map m) = .ok out ↔
      ∃ p, t.run t.unhandledOk m (.start m) = .ok (none, p) ∧ out = .map p.output ∧
        ∀ k ∈ settings.constraints, k.holds out = true := by
  have henforce : ∀ v w, settings.enforce v = .ok w ↔
      w = v ∧ ∀ k ∈ settings.constraints, k.holds v = true := by
    intro v w
    rw [Settings.enforce_ok_iff, Settings.replaces_of_required required]
    simp
  rw [check_mapping_eq required, Outcome.bind_ok_iff]
  constructor
  · rintro ⟨v, hv, hout⟩
    obtain ⟨rfl, hconstraints⟩ := (henforce v out).mp hout
    rcases hr : t.run t.unhandledOk m (.start m) with d | ⟨_ | e, p⟩ <;> rw [hr] at hv <;> cases hv
    exact ⟨p, rfl, rfl, hconstraints⟩
  · rintro ⟨p, hr, rfl, hconstraints⟩
    rw [hr]
    exact ⟨.map p.output, rfl, (henforce _ _).mpr ⟨rfl, hconstraints⟩⟩

theorem Spec.check_mapping_defect_iff (required : settings.optional = false) {d : Defect} :
    (⟨settings, .mapping t⟩ : Spec).check (.map m) = .defect d ↔
      t.run t.unhandledOk m (.start m) = .error d := by
  rw [check_mapping_eq required]
  rcases t.run t.unhandledOk m (.start m) with d' | ⟨_ | e, p⟩
  · simp [Run.close]
  · simp [Run.close, Settings.enforce_ne_defect]
  · simp [Run.close]

end Required

end Conformance
