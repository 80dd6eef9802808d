import Conformance.Constraint.Factory
import Conformance.Proofs.Stable.Mapping

/-! # Constraints on values that are provided

Constraints are not asked about a value that is unset, and it is the checked value that they are
asked about. So they can only be missed where the check takes a value that is set to one that is
not. Which rules may do this can be told from the rules.
-/

namespace Conformance

open Value (Entries)

/-! ## Rules that make nothing unset -/

mutual

def Base.Faithful (u : Unset) : Base → Prop
  | .atom _ => True
  | .spec s => s.Faithful u

/-- Neither what gives way to the default nor what a canonicalizer makes unset was set before. -/
def Spec.Faithful (u : Unset) : Spec → Prop
  | ⟨settings, rule⟩ =>
    (settings.optional = true → ∀ v, settings.unset.holds v = true → u.holds v = true) ∧
      (∀ v c, rule.canonicalize v = .ok c → u.holds c = true → u.holds v = true) ∧ rule.Faithful u

/-- A table that drops keys writes at least one of its own. -/
def Rule.Faithful (u : Unset) : Rule → Prop
  | .scalar _ _ => True
  | .enum _ _ => True
  | .union types => FaithfulTypes u types
  | .iter _ _ => u.Uniform
  | .seq _ _ => u.Uniform
  | .mapping t => u.Uniform ∧ (t.unhandledOk = true → t.keys ≠ [])

def FaithfulTypes (u : Unset) : List Base → Prop
  | [] => True
  | b :: rest => b.Faithful u ∧ FaithfulTypes u rest

end

section Faithful

variable {u : Unset}

theorem Settings.unset_of_given {s : Settings}
    (hunset : s.optional = true → ∀ v, s.unset.holds v = true → u.holds v = true) {v : Value}
    (h : u.holds (s.given v) = true) : u.holds v = true := by
  cases hr : s.replaces v with
  | true =>
    obtain ⟨hoptional, hv⟩ := Bool.and_eq_true_iff.mp hr
    exact hunset hoptional v hv
  | false => rwa [Settings.given_of_kept hr] at h

mutual

theorem Base.unset_of_check : (b : Base) → b.Faithful u → ∀ {v c}, b.check v = .ok c →
    u.holds c = true → u.holds v = true
  | .atom _, _, _, _, hc, hu => by rwa [(Atom.check_ok_iff.mp hc).1] at hu
  | .spec s, h, _, _, hc, hu => Spec.unset_of_check s h hc hu

theorem Spec.unset_of_check : (s : Spec) → s.Faithful u → ∀ {v c}, s.check v = .ok c →
    u.holds c = true → u.holds v = true
  | ⟨_, rule⟩, ⟨hunset, hcanonical, hrule⟩, _, _, hc, hu => by
    obtain ⟨w, hw, -, hcanonicalize⟩ := Spec.check_ok_iff.mp hc
    exact Settings.unset_of_given hunset
      (Rule.unset_of_check rule hrule hw (hcanonical w _ hcanonicalize hu))

theorem Rule.unset_of_check : (r : Rule) → r.Faithful u → ∀ {v c}, r.check v = .ok c →
    u.holds c = true → u.holds v = true
  | .scalar _ _, _, _, _, hc, hu => by rwa [Rule.scalar_same hc] at hu
  | .enum _ _, _, _, _, hc, hu => by rwa [Rule.enum_same hc] at hu
  | .union types, h, v, c, hc, hu => by
    obtain ⟨b, hb, hbc⟩ := Base.mem_of_checkAny (show Base.checkAny types v = .ok c from hc)
    exact unset_of_types types h b hb hbc hu
  | .iter types container, h, _, _, hc, hu => Rule.keepsSet_iter types container h hc hu
  | .seq positions container, h, _, _, hc, hu => Rule.keepsSet_seq positions container h hc hu
  | .mapping _, ⟨huniform, hdeclares⟩, _, _, hc, hu =>
    Rule.keepsSet_mapping hdeclares huniform hc hu

theorem unset_of_types : (types : List Base) → FaithfulTypes u types → ∀ b ∈ types, ∀ {v c},
    b.check v = .ok c → u.holds c = true → u.holds v = true
  | [], _ => List.forall_mem_nil _
  | b :: rest, ⟨hb, hrest⟩ =>
    List.forall_mem_cons.mpr ⟨Base.unset_of_check b hb, unset_of_types rest hrest⟩

end

end Faithful

/-! ## Constraints that are met -/

/-- A value that does not stand for the default is accepted if its structure is right and what comes
of it meets every constraint, or is unset itself, which it can only be by rules that are not
faithful. -/
theorem Spec.check_constrained {s : Spec} {v c : Value} (given : s.settings.replaces v = false) :
    s.check v = .ok c ↔
      ∃ w, s.rule.check v = .ok w ∧ s.rule.canonicalize w = .ok c ∧
        ((∀ k ∈ s.constraints, k.holds w = true) ∨
          s.isOptional = true ∧ s.settings.unset.holds w = true ∧
            ¬ s.rule.Faithful s.settings.unset) := by
  obtain ⟨settings, rule⟩ := s
  rw [Spec.check_ok_iff, Settings.given_of_kept given]
  refine exists_congr fun w => and_congr_right fun hw => ?_
  rw [and_comm]
  refine and_congr_right fun _ => ?_
  constructor
  · rintro (hreplaced | hconstraints)
    · -- A faithful rule would have been given a value that is unset, hence the default.
      obtain ⟨hoptional, hunset⟩ := Bool.and_eq_true_iff.mp hreplaced
      refine .inr ⟨hoptional, hunset, fun hfaithful => ?_⟩
      have hgiven : settings.replaces v = true := Bool.and_eq_true_iff.mpr
        ⟨hoptional, Rule.unset_of_check rule hfaithful hw hunset⟩
      exact absurd (given.symm.trans hgiven) Bool.false_ne_true
    · exact .inl hconstraints
  · rintro (hconstraints | ⟨hoptional, hunset, -⟩)
    · exact .inr hconstraints
    · exact .inl (Bool.and_eq_true_iff.mpr ⟨hoptional, hunset⟩)

namespace Survey

/-- At least two different answers, if there are any. -/
def answers : Spec :=
  ⟨⟨true, .value (.list []), .falsy, [.minLength ⟨[]⟩ 2]⟩, .iter [.atom (.kind .str)] .set⟩

/-- Marks under numbers, with other keys left out, and at least one mark if there are any. -/
def marks : Spec :=
  ⟨⟨true, .value (.map []), .falsy, [.minLength ⟨[]⟩ 1]⟩,
    .mapping ⟨[], [⟨.atom (.kind .int), .atom (.kind .any)⟩], [], "marks", true⟩⟩

end Survey

theorem check_constrained_answers :
    Survey.answers.check (.list [.str "b", .str "a", .str "b"]) = .ok (.set [.str "a", .str "b"]) ∧
      ∀ k ∈ Survey.answers.constraints, k.holds (.set [.str "a", .str "b"]) = true := by
  have given : Survey.answers.settings.replaces (.list [.str "b", .str "a", .str "b"]) = false :=
    rfl
  have accepted : Survey.answers.check (.list [.str "b", .str "a", .str "b"]) =
      .ok (.set [.str "a", .str "b"]) := rfl
  obtain ⟨w, -, hw, hmet⟩ := (Spec.check_constrained given).mp accepted
  obtain rfl : w = .set [.str "a", .str "b"] := Outcome.ok.inj hw
  refine ⟨accepted, hmet.resolve_right fun ⟨_, _, hunfaithful⟩ => ?_⟩
  exact hunfaithful (Unset.uniform_of_plain trivial)

/-- What is left of a mapping may be unset where the mapping was not. -/
theorem check_constrained_dropped :
    Survey.marks.settings.unset.holds (.map [(.str "a", .int 1)]) = false ∧
      Survey.marks.check (.map [(.str "a", .int 1)]) = .ok (.map []) ∧
      Survey.marks.rule.check (.map [(.str "a", .int 1)]) = .ok (.map []) ∧
      ¬ ∀ k ∈ Survey.marks.constraints, k.holds (.map []) = true :=
  ⟨rfl, rfl, rfl, by decide⟩

end Conformance
