import Conformance.Proofs.Spec.Verdict
import Conformance.Proofs.Value.Entries
import Conformance.Schema

/-! # Values of an enumeration

An enumeration gives back what it lists, but an optional one takes whatever is not truthy for a
value that is not provided, and does so before it looks at the list. So of the values that are not
truthy, an optional enumeration gives back its default only.
-/

namespace Conformance

/-! ## Checking -/

section Checking

variable {settings : Settings} {members : List Value} (unconstrained : settings.constraints = [])
include unconstrained

/-- Without constraints and canonicalizer an enumeration asks for membership only. -/
theorem Spec.checkGiven_enum (v : Value) :
    (⟨settings, .enum members none⟩ : Spec).checkGiven v =
      if v ∈ members then .ok v
      else .invalid (.mismatch ("Must match " ++ (Rule.enum members none).typeName)) := by
  rw [checkGiven_of_plain unconstrained fun _ => rfl]
  rfl

theorem Spec.checkGiven_enum_ok_iff {v w : Value} :
    (⟨settings, .enum members none⟩ : Spec).checkGiven v = .ok w ↔ w = v ∧ v ∈ members := by
  rw [checkGiven_enum unconstrained]
  by_cases h : v ∈ members
  · rw [if_pos h, Outcome.ok.injEq, eq_comm]
    exact (and_iff_left h).symm
  · rw [if_neg h]
    exact ⟨nofun, fun hv => absurd hv.2 h⟩

end Checking

/-! ## Building -/

/-- What is listed in the end: null as well, if the enumeration is to be optional. -/
def listedMembers (values : List Value) (optional : Bool) : List Value :=
  if optional then Value.insertMember .null (Value.members values) else Value.members values

theorem mem_listedMembers {v : Value} {values : List Value} {optional : Option Bool} :
    v ∈ listedMembers values (optional.getD false) ↔
      v ∈ values ∨ (optional = some true ∧ v = .null) := by
  rcases optional with _ | _ | _
  · simp [listedMembers]
  · simp [listedMembers]
  · simp [listedMembers, Value.mem_insertMember, or_comm]

def enumeration (values : List Value) (optional : Option Bool) (default : Option Default) : Spec :=
  let members := listedMembers values (optional.getD false)
  ⟨⟨members.contains .null, default.getD (.value .null), .falsy, []⟩, .enum members none⟩

section Building

variable {values : List Value} {optional : Option Bool} {default : Option Default} {s : Spec}

theorem Schema.enum_ok_iff :
    Schema.enum values none { optional, default } = .ok s ↔
      s = enumeration values optional default ∧
        (s.isOptional = true → s.defaultValue ∈ listedMembers values (optional.getD false)) := by
  rw [Schema.enum, Spec.enum, Spec.assemble_ok_iff]
  refine and_congr_right ?_
  rintro rfl
  refine imp_congr_right fun _ => ?_
  rw [Spec.check_default]
  constructor
  · rintro ⟨w, hw⟩
    exact (Spec.checkGiven_enum_ok_iff rfl).mp hw |>.2
  · intro h
    exact ⟨_, (Spec.checkGiven_enum_ok_iff rfl).mpr ⟨rfl, h⟩⟩

theorem isOptional_enumeration :
    (enumeration values optional default).isOptional = true ↔
      optional = some true ∨ .null ∈ values := by
  have hmem : (enumeration values optional default).isOptional = true ↔
      .null ∈ listedMembers values (optional.getD false) := List.contains_iff_mem
  rw [hmem, mem_listedMembers, and_iff_left rfl, or_comm]

theorem Spec.check_of_enum (built : Schema.enum values none { optional, default } = .ok s)
    (v : Value) :
    s.check v =
      if s.isOptional && !v.isTruthy then .ok s.defaultValue
      else if v ∈ values then .ok v
      else .invalid (.mismatch ("Must match " ++ s.typeName)) := by
  obtain ⟨rfl, valid⟩ := Schema.enum_ok_iff.mp built
  rw [check_eq_checkGiven, enumeration, checkGiven_enum rfl, ← enumeration]
  by_cases hunset : ((enumeration values optional default).isOptional && !v.isTruthy) = true
  · obtain ⟨hoptional, -⟩ := Bool.and_eq_true_iff.mp hunset
    have hgiven : (enumeration values optional default).settings.given v =
        (enumeration values optional default).defaultValue := Settings.given_of_replaced hunset
    rw [if_pos hunset, hgiven, if_pos (valid hoptional)]
  · have hgiven : (enumeration values optional default).settings.given v = v :=
      Settings.given_of_kept (eq_false_of_ne_true hunset)
    -- Null alone is listed without being declared, and it is not truthy.
    have hmem : v ∈ listedMembers values (optional.getD false) ↔ v ∈ values := by
      rw [mem_listedMembers]
      refine or_iff_left ?_
      rintro ⟨hoptional, rfl⟩
      have hisOptional : (enumeration values optional default).isOptional = true :=
        isOptional_enumeration.mpr (.inl hoptional)
      exact hunset (Bool.and_eq_true_iff.mpr ⟨hisOptional, rfl⟩)
    rw [if_neg hunset, hgiven]
    exact if_congr hmem rfl rfl

end Building

/-- An enumeration without constraints and canonicalizer gives back the values that it lists and
refuses all others, except that an optional one replaces whatever is not truthy by its default. -/
theorem check_enumerated {values : List Value} {optional : Option Bool} {default : Option Default}
    {s : Spec} (built : Schema.enum values none { optional, default } = .ok s) :
    (s.isOptional = true ↔ optional = some true ∨ .null ∈ values) ∧
    s.defaultValue = (default.getD (.value .null)).produce ∧
    (∀ v, s.check v =
      if s.isOptional && !v.isTruthy then .ok s.defaultValue
      else if v ∈ values then .ok v
      else .invalid (.mismatch ("Must match " ++ s.typeName))) ∧
    ∀ v ∈ values,
      (s.check v = .ok v ↔
        (s.isOptional = true → v.isTruthy = false → v = s.defaultValue)) := by
  have hcheck := Spec.check_of_enum built
  obtain ⟨rfl, -⟩ := Schema.enum_ok_iff.mp built
  refine ⟨isOptional_enumeration, rfl, hcheck, fun v hv => ?_⟩
  rw [hcheck]
  by_cases hoptional : (enumeration values optional default).isOptional = true
  · by_cases htruthy : v.isTruthy = true
    · simp [hoptional, htruthy, hv]
    · simp [hoptional, htruthy, eq_comm]
  · simp [hoptional, hv]

namespace Keep

def answers : List Value := [.bool false, .bool true, .str "ask"]

def options : Options := { optional := some true, default := some (.value (.str "ask")) }

end Keep

/-- As long as an answer is required, each one is given back. -/
theorem check_enumerated_keep :
    ∃ s, Schema.enum Keep.answers none {} = .ok s ∧ (∀ v ∈ Keep.answers, s.check v = .ok v) ∧
      s.check .null = .invalid (.mismatch "Must match enum=false/true/\"ask\"") := by
  have hs : Schema.enum Keep.answers none {} = .ok (enumeration Keep.answers none none) := rfl
  obtain ⟨hoptional, -, hcheck, hlisted⟩ := check_enumerated hs
  have hrequired : ¬ (enumeration Keep.answers none none).isOptional = true := by
    rw [hoptional]
    decide
  refine ⟨_, hs, fun v hv => ?_, ?_⟩
  · exact (hlisted v hv).mpr fun h => absurd h hrequired
  · rw [hcheck, eq_false_of_ne_true hrequired, Bool.false_and, if_neg (by decide),
      if_neg (by decide)]
    rfl

/-- Once an answer is optional, false is taken for none although it is listed. -/
theorem check_enumerated_unset :
    ∃ s, Schema.enum Keep.answers none Keep.options = .ok s ∧ .bool false ∈ Keep.answers ∧
      s.check (.bool false) = .ok (.str "ask") :=
  ⟨_, rfl, by decide, rfl⟩

end Conformance
