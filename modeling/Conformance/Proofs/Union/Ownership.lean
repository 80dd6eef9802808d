import Conformance.Proofs.Union.Flattening

/-! # Who owns a value that cannot be refined

A scalar type refines a value of its kind by a canonicalizer. Where that fails with a verdict on the
value, a refined type takes the value for one of another type, and a union asks the types after it.
Any other type takes the value for its own, and its failure is the answer of the union.
-/

namespace Conformance

/-- The class and the text of a failure that is a verdict on the value. -/
def CanonFault.verdict? : CanonFault → Option (String × String)
  | .invalidValue text => some ("invalid value", text)
  | .wrongType text => some ("wrong type", text)
  | .missingAttribute text => some ("missing attribute", text)
  | .missingKey text => some ("missing key", text)
  | .other _ => none

namespace Canonicalizer

variable {f : Callback (Value → Except CanonFault Value)} {fallsThrough : Bool} {v : Value}
  {fault : CanonFault}

theorem apply_ok_iff {w : Value} : apply ⟨f, fallsThrough⟩ v = .ok w ↔ f.run v = .ok w := by
  constructor
  · intro h
    unfold apply at h
    cases hrun : f.run v with
    | ok u =>
      rw [hrun] at h
      exact congrArg Except.ok (Outcome.ok.inj h)
    | error fault =>
      rw [hrun] at h
      cases fault <;> cases h
  · intro h
    rw [apply, h]

theorem apply_of_verdict {cls text : String} (fails : f.run v = .error fault)
    (verdict : fault.verdict? = some (cls, text)) :
    apply ⟨f, fallsThrough⟩ v = fail ⟨f, fallsThrough⟩ cls text := by
  cases fault <;> cases verdict <;> rw [apply, fails]

/-- Only the report of a verdict depends on whether the value counts as being of another type. -/
theorem apply_of_no_verdict (h : ∀ fault, f.run v = .error fault → fault.verdict? = none)
    (fallsThrough' : Bool) : apply ⟨f, fallsThrough⟩ v = apply ⟨f, fallsThrough'⟩ v := by
  unfold apply
  cases hrun : f.run v with
  | ok w => rfl
  | error fault =>
    have hverdict := h fault hrun
    cases fault with
    | other d => rfl
    | _ => cases hverdict

end Canonicalizer

/-! ## Scalar types that have to be given -/

section Scalar

variable {a : Atom} {o : Options} {settings : Settings} {v : Value}

def Options.scalar (o : Options) (a : Atom) (c : Canonicalizer) : Spec :=
  ⟨o.resolve (.value .null) .empty, .scalar a (some c)⟩

theorem Spec.scalar_of_required (required : o.optional ≠ some true) (c : Canonicalizer) :
    Spec.scalar a (some c) o = .ok (o.scalar a c) := by
  refine assemble_ok_iff.mpr ⟨rfl, fun hoptional => ?_⟩
  exact absurd (hoptional.symm.trans (Options.resolve_required required)) (by decide)

/-- A value of the kind is asked for the constraints and refined then. -/
theorem Spec.check_scalar (required : o.optional ≠ some true) (c : Canonicalizer) (v : Value) :
    (o.scalar a c).check v =
      ((a.check v).bind (Constraint.enforce o.constraints)).bind c.apply := by
  have hrequired : (o.resolve (.value .null) .empty).optional = false :=
    Options.resolve_required required
  have henforce : (o.resolve (.value .null) .empty).enforce = Constraint.enforce o.constraints := by
    funext w
    rw [Settings.enforce, Settings.replaces_of_required hrequired]
    rfl
  rw [Options.scalar, Spec.check,
    Settings.given_of_kept (Settings.replaces_of_required hrequired v), henforce]
  rfl

theorem Spec.check_scalar_of_met (required : o.optional ≠ some true)
    (included : a.includes v = true) (met : ∀ k ∈ o.constraints, k.holds v = true)
    (c : Canonicalizer) : (o.scalar a c).check v = c.apply v := by
  have hkind : a.check v = .ok v := Atom.check_ok_iff.mpr ⟨rfl, included⟩
  have hmet : Constraint.enforce o.constraints v = .ok v :=
    Constraint.enforce_ok_iff.mpr ⟨rfl, met⟩
  rw [Spec.check_scalar required, hkind, Outcome.ok_bind, hmet, Outcome.ok_bind]

end Scalar

/-! ## In a list of types -/

section Lists

variable {front back : List Base} {b : Base} {v : Value}

theorem firstMatch_of_mismatch (h : (b.check v).isMismatch = true) :
    firstMatch (front ++ b :: back) v = firstMatch (front ++ back) v := by
  have hnone : firstMatch [b] v = firstMatch [] v := by
    rw [firstMatch_cons, if_pos h]
  rw [firstMatch_replace hnone, List.append_nil]

theorem checkAny_of_owner (passed : ∀ a ∈ front, (a.check v).isMismatch = true)
    (owns : (b.check v).isMismatch = false) :
    Base.checkAny (front ++ b :: back) v = b.check v := by
  have hfirst : firstMatch (front ++ b :: back) v = some (b.check v) :=
    firstMatch_eq_some_iff.mpr ⟨front, b, back, rfl, ⟨passed, owns⟩, rfl⟩
  rw [Base.checkAny, hfirst]
  rfl

end Lists

/-- A value that a canonicalizer refuses is left to the other types by a refined type, and owned by
a type that is not: whatever types come after it, the class and the text of the failure are the
answer, once the types before have passed. Other values are answered alike. -/
theorem checkAny_ownership {a : Atom} {f : Callback (Value → Except CanonFault Value)}
    {o : Options} {v : Value} {fault : CanonFault} {cls text : String}
    (required : o.optional ≠ some true) (included : a.includes v = true)
    (met : ∀ k ∈ o.constraints, k.holds v = true) (fails : f.run v = .error fault)
    (verdict : fault.verdict? = some (cls, text)) (front : List Base) :
    ∃ refined type, Schema.refined (.atom a) (some f) o = .ok refined ∧
      Schema.type (.atom a) (some f) o = .ok type ∧
      refined.isOptional = false ∧ type.isOptional = false ∧
      (∀ back, AnswersAlike (front ++ .spec refined :: back) (front ++ back) v) ∧
      ((∀ b ∈ front, (b.check v).isMismatch = true) → ∀ back,
        Base.checkAny (front ++ .spec type :: back) v =
          .invalid (.simple (cls ++ " during canonicalization: " ++ text))) ∧
      ∀ w, (a.includes w = true → (∀ k ∈ o.constraints, k.holds w = true) →
          ∀ fault, f.run w = .error fault → fault.verdict? = none) →
        refined.check w = type.check w := by
  have hoptional : ∀ c, (o.scalar a c).isOptional = false := fun c =>
    Options.resolve_required required
  have hanswer : ∀ fallsThrough, (o.scalar a ⟨f, fallsThrough⟩).check v =
      Canonicalizer.fail ⟨f, fallsThrough⟩ cls text := fun fallsThrough =>
    (Spec.check_scalar_of_met required included met _).trans
      (Canonicalizer.apply_of_verdict fails verdict)
  refine ⟨o.scalar a ⟨f, true⟩, o.scalar a ⟨f, false⟩, Spec.scalar_of_required required _,
    Spec.scalar_of_required required _, hoptional _, hoptional _, ?_, ?_, ?_⟩
  · intro back
    have hmismatch : (Base.check (.spec (o.scalar a ⟨f, true⟩)) v).isMismatch = true :=
      congrArg Outcome.isMismatch (hanswer true)
    exact .of_firstMatch_eq (firstMatch_of_mismatch hmismatch)
  · intro passed back
    have howns : (Base.check (.spec (o.scalar a ⟨f, false⟩)) v).isMismatch = false :=
      congrArg Outcome.isMismatch (hanswer false)
    exact (checkAny_of_owner passed howns).trans (hanswer false)
  · intro w hw
    rw [Spec.check_scalar required, Spec.check_scalar required]
    -- Before the canonicalizer both do the same, and what reaches it is included and meets all.
    cases hreached : (a.check w).bind (Constraint.enforce o.constraints) with
    | invalid e => rfl
    | defect d => rfl
    | ok u =>
      obtain ⟨u', hincluded, hmet⟩ := Outcome.bind_ok_iff.mp hreached
      obtain ⟨rfl, hincluded⟩ := Atom.check_ok_iff.mp hincluded
      obtain ⟨rfl, hmet⟩ := Constraint.enforce_ok_iff.mp hmet
      exact Canonicalizer.apply_of_no_verdict (hw hincluded hmet) false

namespace Workers

def count : Value → Except CanonFault Value
  | .str "many" => .ok (.int 8)
  | v => .error (.invalidValue ("no count of workers: " ++ v.render))

def counted : Callback (Value → Except CanonFault Value) := ⟨⟨[0]⟩, count⟩

def nonempty : Constraint := ⟨⟨⟨[1]⟩, Value.isTruthy⟩, "is empty"⟩

def front : List Base := [.atom (.kind .int)]

def back : List Base := [.spec ⟨⟨false, .value .null, .falsy, []⟩, .enum [.str "auto"] none⟩]

end Workers

/-- A word that is no count is still a choice of its own, unless the counted texts own all texts. -/
theorem checkAny_ownership_workers :
    ∃ refined type,
      Schema.refined (.atom (.kind .str)) (some Workers.counted)
        { constraints := [Workers.nonempty] } = .ok refined ∧
      Schema.type (.atom (.kind .str)) (some Workers.counted)
        { constraints := [Workers.nonempty] } = .ok type ∧
      Base.checkAny (Workers.front ++ .spec refined :: Workers.back) (.str "auto") =
        .ok (.str "auto") ∧
      Base.checkAny (Workers.front ++ .spec type :: Workers.back) (.str "auto") =
        .invalid (.simple
          "invalid value during canonicalization: no count of workers: \"auto\"") := by
  have hmet : ∀ k ∈ [Workers.nonempty], k.holds (.str "auto") = true :=
    List.forall_mem_singleton.mpr rfl
  obtain ⟨refined, type, hrefined, htype, -, -, halike, howned, -⟩ :=
    @checkAny_ownership (.kind .str) Workers.counted { constraints := [Workers.nonempty] }
      (.str "auto") _ _ _ nofun rfl hmet rfl rfl Workers.front
  refine ⟨refined, type, hrefined, htype, ?_, ?_⟩
  · have hrest : Base.checkAny (Workers.front ++ Workers.back) (.str "auto") =
        .ok (.str "auto") := rfl
    have hmatch := (halike Workers.back).isMismatch_eq
    rw [hrest] at hmatch
    exact ((halike Workers.back).eq_of_match hmatch).trans hrest
  · exact howned (List.forall_mem_singleton.mpr rfl) Workers.back

end Conformance
