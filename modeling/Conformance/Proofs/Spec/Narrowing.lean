import Conformance.Proofs.Spec.Derivation

/-! # Constraints added to a specification

Further constraints are asked about the same structurally checked value as those before them. They
refuse some of what was accepted, report every constraint that is broken, old ones and new ones in
their order, and change nothing else.
-/

namespace Conformance

/-! ## What broken constraints report -/

namespace Constraint

variable {cs : List Constraint} {v : Value}

def caption (cs : List Constraint) : String :=
  if cs.length = 1 then "Does not meet value constraint: " else ""

def violations (cs : List Constraint) (v : Value) : List Failure :=
  (cs.filter fun k => !k.holds v).map fun k => .leaf none (caption cs ++ k.message)

theorem violations_eq_map (cs : List Constraint) (v : Value) :
    violations cs v = (broken cs v).map fun m => .leaf none (caption cs ++ m) := by
  rw [broken, List.map_map]
  rfl

/-- Broken constraints are reported in full, and never as a mismatch. -/
theorem exists_enforce_invalid (h : violations cs v ≠ []) :
    ∃ e, enforce cs v = .invalid e ∧ e.isMismatch = false ∧
      (e.isAggregate = true ↔ cs.length ≠ 1) ∧ e.failures = violations cs v := by
  rw [violations_eq_map] at h ⊢
  rw [enforce, violation?]
  cases hbroken : broken cs v with
  | nil =>
    rw [hbroken] at h
    exact absurd rfl h
  | cons m rest =>
    dsimp only
    by_cases hlength : cs.length = 1
    · have hrest : rest = [] := by
        have hle : (broken cs v).length ≤ cs.length := by
          rw [broken, List.length_map]
          exact List.length_filter_le _ _
        rw [hbroken, hlength, List.length_cons] at hle
        exact List.length_eq_zero_iff.mp (by omega)
      rw [if_pos hlength, caption, if_pos hlength, hrest]
      exact ⟨_, rfl, rfl, iff_of_false Bool.false_ne_true (absurd hlength), rfl⟩
    · rw [if_neg hlength, caption, if_neg hlength]
      refine ⟨_, rfl, rfl, iff_of_true rfl hlength, ?_⟩
      simp [Invalid.ofFailures, Invalid.failures]

end Constraint

/-! ## Constraints between structure and canonical form -/

namespace Spec

variable {s t : Spec} {cs : List Constraint} {v w : Value}

/-- A value is asked for constraints after its structure has been checked. -/
theorem check_of_structure (h : s.rule.check (s.settings.given v) = .ok w) :
    s.check v = (s.settings.enforce w).bind s.rule.canonicalize := by
  rw [check_eq_checkGiven, checkGiven, h, Outcome.ok_bind]

/-- Constraints are not asked about a value of the wrong structure. -/
theorem check_constrain_of_no_structure (cs : List Constraint)
    (h : ∀ w, s.rule.check (s.settings.given v) ≠ .ok w) :
    (s.constrain cs).check v = s.check v := by
  have hgiven : (s.constrain cs).settings.given v = s.settings.given v := rfl
  have hrule : (s.constrain cs).rule = s.rule := rfl
  rw [check_eq_checkGiven, check_eq_checkGiven, hgiven, checkGiven, checkGiven, hrule]
  cases hstructure : s.rule.check (s.settings.given v) with
  | ok w => exact absurd hstructure (h w)
  | invalid e => rfl
  | defect d => rfl

theorem enforce_of_asked (h : s.settings.replaces w = false) :
    s.settings.enforce w = Constraint.enforce s.constraints w := by
  rw [Settings.enforce, h]
  rfl

theorem check_constrain_ok_iff {c : Value} :
    (s.constrain cs).check v = .ok c ↔
      s.check v = .ok c ∧ ∃ w, s.rule.check (s.settings.given v) = .ok w ∧
        (s.settings.replaces w = true ∨ ∀ k ∈ cs, k.holds w = true) := by
  obtain ⟨settings, rule⟩ := s
  constructor
  · intro h
    refine ⟨check_of_constrain h, ?_⟩
    obtain ⟨w, hw, hmet, -⟩ := check_ok_iff.mp h
    refine ⟨w, hw, hmet.imp_right fun hall k hk => ?_⟩
    exact hall k (List.mem_append_right _ hk)
  · rintro ⟨h, w, hw, hadded⟩
    obtain ⟨w', hw', hmet, hc⟩ := check_ok_iff.mp h
    obtain rfl : w = w' := Outcome.ok.inj (hw.symm.trans hw')
    refine check_ok_iff.mpr ⟨w, hw, ?_, hc⟩
    rcases hmet with hunset | hold
    · exact .inl hunset
    · rcases hadded with hunset | hnew
      · exact .inl hunset
      · exact .inr (List.forall_mem_append.mpr ⟨hold, hnew⟩)

end Spec

/-- A specification with added constraints accepts what it accepted before, as far as the
structurally checked value meets the new constraints or stands for the default. A value that breaks
constraints is refused with one failure for each of them, in their order. Whatever else there is to
say about a value is as before. -/
theorem check_narrowed {s t : Spec} {cs : List Constraint} (built : s.Buildable)
    (added : s.addConstraints cs = .ok t) :
    t.rule = s.rule ∧ t.settings = { s.settings with constraints := s.constraints ++ cs } ∧
    (∀ v c, t.check v = .ok c ↔
      s.check v = .ok c ∧ ∃ w, s.rule.check (s.settings.given v) = .ok w ∧
        ((s.isOptional = true ∧ s.settings.unset.holds w = true) ∨
          ∀ k ∈ cs, k.holds w = true)) ∧
    (∀ v w, s.rule.check (s.settings.given v) = .ok w →
      ¬ (s.isOptional = true ∧ s.settings.unset.holds w = true) →
      Constraint.violations (s.constraints ++ cs) w ≠ [] →
      ∃ e, t.check v = .invalid e ∧ e.isMismatch = false ∧
        (e.isAggregate = true ↔ (s.constraints ++ cs).length ≠ 1) ∧
        e.failures = Constraint.violations (s.constraints ++ cs) w) ∧
    ∀ v, (∀ w, s.rule.check (s.settings.given v) = .ok w →
        (s.isOptional = true ∧ s.settings.unset.holds w = true) ∨
          ∀ k ∈ s.constraints ++ cs, k.holds w = true) →
      t.check v = s.check v := by
  obtain ⟨rfl, -⟩ := built.settled.addConstraints_ok_iff.mp added
  have hreplaces : ∀ w, (s.isOptional = true ∧ s.settings.unset.holds w = true) ↔
      s.settings.replaces w = true := fun w => Bool.and_eq_true_iff.symm
  refine ⟨rfl, rfl, ?_, ?_, ?_⟩
  · intro v c
    simp only [hreplaces]
    exact Spec.check_constrain_ok_iff
  · intro v w hw hasked hbroken
    rw [hreplaces, Bool.not_eq_true] at hasked
    obtain ⟨e, he, hmismatch, haggregate, hfailures⟩ := Constraint.exists_enforce_invalid hbroken
    have henforce : (s.constrain cs).settings.enforce w = .invalid e :=
      (Spec.enforce_of_asked (s := s.constrain cs) hasked).trans he
    refine ⟨e, ?_, hmismatch, haggregate, hfailures⟩
    rw [Spec.check_of_structure (s := s.constrain cs) hw, henforce]
    rfl
  · intro v hpassed
    by_cases hstructure : ∃ w, s.rule.check (s.settings.given v) = .ok w
    · obtain ⟨w, hw⟩ := hstructure
      have hmet := (hpassed w hw).imp_left (hreplaces w).mp
      have hold : s.settings.enforce w = .ok w :=
        Settings.enforce_ok_iff.mpr ⟨rfl, hmet.imp_right fun hall k hk =>
          hall k (List.mem_append_left cs hk)⟩
      have hnew : (s.constrain cs).settings.enforce w = .ok w :=
        Settings.enforce_ok_iff.mpr ⟨rfl, hmet⟩
      rw [Spec.check_of_structure hw, Spec.check_of_structure (s := s.constrain cs) hw, hold, hnew]
      rfl
    · exact Spec.check_constrain_of_no_structure cs fun w hw => hstructure ⟨w, hw⟩

namespace Nickname

def least : Constraint := .minLength ⟨[0]⟩ 2

def most : Constraint := .maxLength ⟨[1]⟩ 8

def vowel : Constraint := .containing ⟨[2]⟩ (.str "e")

def options : Options :=
  { optional := some true, default := some (.value (.str "guest")), constraints := [least] }

def spec : Spec := ⟨⟨true, .value (.str "guest"), .empty, [least]⟩, .scalar (.kind .str) none⟩

theorem buildable : spec.Buildable := by
  have hspec : Schema.type (.atom (.kind .str)) none options = .ok spec := rfl
  exact .type hspec

end Nickname

/-- A name that is too short is told of the vowel as well, and of nothing that it meets. -/
theorem check_narrowed_nickname :
    ∃ t, Nickname.spec.addConstraints [Nickname.most, Nickname.vowel] = .ok t ∧
      t.check (.str "reed") = .ok (.str "reed") ∧ t.check .null = .ok (.str "guest") ∧
      ∃ e, t.check (.str "x") = .invalid e ∧ e.isMismatch = false ∧
        e.messages = ["Must have length >= 2", "Must contain \"e\""] := by
  obtain ⟨t, ht⟩ : ∃ t, Nickname.spec.addConstraints [Nickname.most, Nickname.vowel] = .ok t :=
    ⟨_, rfl⟩
  obtain ⟨-, -, haccepted, hbroken, -⟩ := check_narrowed Nickname.buildable ht
  obtain ⟨e, he, hmismatch, -, hfailures⟩ :=
    hbroken (.str "x") (.str "x") rfl (by decide) (by decide)
  refine ⟨t, ht, (haccepted _ _).mpr ⟨rfl, _, rfl, .inr ?_⟩,
    (haccepted _ _).mpr ⟨rfl, _, rfl, .inr ?_⟩, e, he, hmismatch, ?_⟩
  · decide
  · decide
  · rw [Invalid.messages, hfailures]
    decide

end Conformance
