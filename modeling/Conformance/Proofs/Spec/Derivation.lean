import Conformance.Constraint.Factory
import Conformance.Proofs.Spec.Buildable
import Conformance.Proofs.Spec.Interchange
import Conformance.Proofs.Value.Identity

/-! # Deriving one specification from another

A derived specification is built again from the rule of another one. That changes nothing of its own
accord, because rule and settings of what has been built agree, and constraints added at once are
the same as constraints added one after the other, because further constraints only refuse more.
-/

namespace Conformance

open Value (Ascending)

/-! ## Agreement of rule and settings -/

namespace Rule

/-- Builders keep the members of an enumeration in ascending order. -/
def Ordered : Rule → Prop
  | .enum members _ => Ascending members
  | _ => True

/-- Optional is just what includes null. -/
def Agrees (optional : Bool) : Rule → Prop
  | .enum members _ => optional = members.contains .null
  | .union types => optional = types.any Base.isNull
  | _ => True

variable {r : Rule} {s : Settings}

theorem Ordered.normalize (h : r.Ordered) (s : Settings) : (r.normalize s).1.Ordered := by
  cases r with
  | enum members c =>
    have hmembers :
        Ascending (if s.optional then Value.insertMember .null members else members) := by
      split
      · exact Ascending.insertMember h .null
      · exact h
    exact hmembers
  | _ => trivial

theorem agrees_normalize (r : Rule) (s : Settings) :
    (r.normalize s).1.Agrees (r.normalize s).2.optional := by
  cases r with
  | enum | union => rfl
  | _ => trivial

/-- Where rule and settings agree, null is included already if it has to be. -/
theorem normalize_of_agrees (ordered : r.Ordered) (agrees : r.Agrees s.optional) :
    r.normalize s = (r, s) := by
  cases r with
  | enum members c =>
    have hmembers :
        (if s.optional then Value.insertMember .null members else members) = members := by
      split
      · next hoptional =>
        have hnull : .null ∈ members := List.contains_iff_mem.mp (agrees.symm.trans hoptional)
        exact (Value.insertMember_eq_self_iff ordered).mpr (Value.mem_iff_compare.mp hnull)
      · rfl
    have hoptional : s.optional = members.contains .null := agrees
    simp only [normalize, hmembers]
    rw [← hoptional]
  | union types =>
    have hoptional : s.optional = types.any Base.isNull := agrees
    have htypes : (if s.optional && !types.any Base.isNull then types ++ [.atom .null] else types) =
        types := by
      rw [hoptional, Bool.and_not_self]
      rfl
    simp only [normalize, htypes]
    rw [← hoptional]
  | _ => rfl

end Rule

namespace Spec

def DefaultConforms (s : Spec) : Prop :=
  s.isOptional = true → ∃ d, s.check s.defaultValue = .ok d

/-- A specification that building again leaves as it is. -/
structure Settled (s : Spec) : Prop where
  ordered : s.rule.Ordered
  agrees : s.rule.Agrees s.isOptional
  default : s.DefaultConforms

theorem settled_of_assemble {rule : Rule} {settings : Settings} {s : Spec}
    (h : assemble rule settings = .ok s) (ordered : rule.Ordered) : s.Settled := by
  obtain ⟨rfl, hdefault⟩ := assemble_ok_iff.mp h
  exact ⟨ordered.normalize settings, rule.agrees_normalize settings, hdefault⟩

theorem assemble_of_agrees {s t : Spec} (ordered : s.rule.Ordered)
    (agrees : s.rule.Agrees s.isOptional) :
    assemble s.rule s.settings = .ok t ↔ t = s ∧ s.DefaultConforms := by
  obtain ⟨settings, rule⟩ := s
  have hnormal : rule.normalize settings = (rule, settings) :=
    Rule.normalize_of_agrees ordered agrees
  rw [assemble_ok_iff, hnormal]
  refine and_congr_right fun h => ?_
  rw [h]
  rfl

/-! ## What has been built -/

theorem settled_of_toBase {d : Descriptor} {s : Spec} (parts : ∀ t ∈ d.specs, t.Settled)
    (h : d.toBase = .ok (.spec s)) : s.Settled := by
  have hmap : ∀ {x : Built Spec}, x.map Base.spec = .ok (.spec s) → x = .ok s := by
    intro x hx
    obtain ⟨t, ht, hts⟩ := Built.map_ok hx
    cases hts
    exact ht
  cases d with
  | atom => cases h
  | spec =>
    cases h
    exact parts s List.mem_cons_self
  | list | union =>
    obtain ⟨types, -, h⟩ := Built.bind_ok h
    exact settled_of_assemble (hmap h) trivial
  | values vs => exact settled_of_assemble (hmap h) (Value.ascending_members vs)
  | mapping =>
    obtain ⟨keys, -, h⟩ := Built.bind_ok h
    obtain ⟨patterns, -, h⟩ := Built.bind_ok h
    obtain ⟨settings, h⟩ := exists_assemble_of_mapping (hmap h)
    exact settled_of_assemble h trivial

theorem Buildable.settled {s : Spec} (h : s.Buildable) : s.Settled := by
  induction h with
  | type h | refined h =>
    obtain ⟨atom, -, h⟩ := Built.bind_ok h
    exact settled_of_assemble h trivial
  | @enum values _ _ _ h =>
    unfold Schema.enum at h
    exact settled_of_assemble h (Value.ascending_members values)
  | union _ h | iter _ h =>
    obtain ⟨types, -, h⟩ := Built.bind_ok h
    exact settled_of_assemble h trivial
  | seq _ h =>
    obtain ⟨positions, -, h⟩ := Built.bind_ok h
    obtain ⟨settings, h⟩ := exists_assemble_of_seq h
    exact settled_of_assemble h trivial
  | mapping _ _ h =>
    obtain ⟨keys, -, h⟩ := Built.bind_ok h
    obtain ⟨patterns, -, h⟩ := Built.bind_ok h
    obtain ⟨settings, h⟩ := exists_assemble_of_mapping h
    exact settled_of_assemble h trivial
  | shorthand _ h ih => exact settled_of_toBase ih h
  | derived _ h ih => exact settled_of_assemble h ih.ordered
  | constrained _ h ih => exact settled_of_assemble h ih.ordered

theorem Settled.derive_id {s : Spec} (h : s.Settled) : s.derive id = .ok s :=
  (assemble_of_agrees h.ordered h.agrees).mpr ⟨rfl, h.default⟩

/-! ## Further constraints -/

/-- A specification with further constraints, before its default is judged. -/
def constrain (s : Spec) (cs : List Constraint) : Spec :=
  ⟨{ s.settings with constraints := s.constraints ++ cs }, s.rule⟩

theorem constrain_append (s : Spec) (xs ys : List Constraint) :
    s.constrain (xs ++ ys) = (s.constrain xs).constrain ys := by
  have hconstraints : s.constraints ++ (xs ++ ys) = s.constraints ++ xs ++ ys :=
    (List.append_assoc _ _ _).symm
  rw [constrain, hconstraints]
  rfl

theorem Settled.addConstraints_ok_iff {s t : Spec} {cs : List Constraint} (h : s.Settled) :
    s.addConstraints cs = .ok t ↔ t = s.constrain cs ∧ (s.constrain cs).DefaultConforms :=
  assemble_of_agrees (s := s.constrain cs) h.ordered h.agrees

theorem Settled.addConstraints {s t : Spec} {cs : List Constraint} (h : s.Settled)
    (ht : s.addConstraints cs = .ok t) : t.Settled :=
  settled_of_assemble ht h.ordered

/-- Further constraints refuse more and change nothing that is accepted. -/
theorem check_of_constrain {s : Spec} {cs : List Constraint} {v c : Value}
    (h : (s.constrain cs).check v = .ok c) : s.check v = .ok c := by
  obtain ⟨settings, rule⟩ := s
  obtain ⟨w, hw, hmet, hc⟩ := check_ok_iff.mp h
  refine check_ok_iff.mpr ⟨w, hw, hmet.imp_right fun hall k hk => ?_, hc⟩
  exact hall k (List.mem_append_left cs hk)

theorem conforms_of_constrain {s : Spec} {cs : List Constraint}
    (h : (s.constrain cs).DefaultConforms) : s.DefaultConforms := by
  intro hoptional
  obtain ⟨d, hd⟩ := h hoptional
  exact ⟨d, check_of_constrain hd⟩

theorem Settled.addConstraints_append_iff {s t : Spec} (h : s.Settled) (xs ys : List Constraint) :
    s.addConstraints (xs ++ ys) = .ok t ↔
      ∃ u, s.addConstraints xs = .ok u ∧ u.addConstraints ys = .ok t := by
  rw [h.addConstraints_ok_iff, constrain_append]
  constructor
  · rintro ⟨ht, hdefault⟩
    -- A default that meets all constraints meets the first ones, so that there is a first step.
    have hfirst : s.addConstraints xs = .ok (s.constrain xs) :=
      h.addConstraints_ok_iff.mpr ⟨rfl, conforms_of_constrain hdefault⟩
    exact ⟨_, hfirst, (h.addConstraints hfirst).addConstraints_ok_iff.mpr ⟨ht, hdefault⟩⟩
  · rintro ⟨u, hfirst, hsecond⟩
    obtain ⟨rfl, -⟩ := h.addConstraints_ok_iff.mp hfirst
    exact (h.addConstraints hfirst).addConstraints_ok_iff.mp hsecond

end Spec

/-- Deriving without a change gives an equal specification. Constraints can be added at once just if
they can be added in two steps, and both ways give equal specifications. -/
theorem derive_lawful {s : Spec} (built : s.Buildable) :
    (∃ t, s.derive id = .ok t ∧ t = s ∧ (t == s) = true) ∧
    ∀ xs ys : List Constraint,
      ((∃ t, s.addConstraints (xs ++ ys) = .ok t) ↔
        ∃ u v, s.addConstraints xs = .ok u ∧ u.addConstraints ys = .ok v) ∧
      ∀ t u v, s.addConstraints (xs ++ ys) = .ok t → s.addConstraints xs = .ok u →
        u.addConstraints ys = .ok v → t = v ∧ (t == v) = true := by
  have hself : ∀ t : Spec, (t == t) = true := Spec.sameBy_self .nothing
  refine ⟨⟨s, built.settled.derive_id, rfl, hself s⟩, fun xs ys => ⟨?_, ?_⟩⟩
  · rw [exists_comm]
    exact exists_congr fun t => built.settled.addConstraints_append_iff xs ys
  · intro t u v ht hu hv
    have htv : s.addConstraints (xs ++ ys) = .ok v :=
      (built.settled.addConstraints_append_iff xs ys).mpr ⟨u, hu, hv⟩
    obtain rfl : t = v := Except.ok.inj (ht.symm.trans htv)
    exact ⟨rfl, hself t⟩

namespace Sizes

def spec : Spec :=
  ⟨⟨true, .value (.str "small"), .falsy, []⟩,
    .enum [.null, .str "large", .str "medium", .str "small"] none⟩

theorem buildable : spec.Buildable := by
  have hspec : Schema.enum [.str "small", .str "medium", .str "large"] none
      { optional := some true, default := some (.value (.str "small")) } = .ok spec := rfl
  exact .enum hspec

def least (n : Nat) : Constraint := .minLength ⟨[1]⟩ n

def most (n : Nat) : Constraint := .maxLength ⟨[2]⟩ n

end Sizes

/-- The default is longer than four characters, hence the second constraint cannot be added. -/
theorem derive_lawful_sizes :
    Sizes.spec.derive id = .ok Sizes.spec ∧
      (∃ t, Sizes.spec.addConstraints ([Sizes.least 2] ++ [Sizes.most 5]) = .ok t) ∧
      ¬ ∃ t, Sizes.spec.addConstraints ([Sizes.least 2] ++ [Sizes.most 4]) = .ok t := by
  obtain ⟨⟨t, hsame, rfl, -⟩, happend⟩ := derive_lawful Sizes.buildable
  refine ⟨hsame, (happend [Sizes.least 2] [Sizes.most 5]).1.mpr ⟨_, _, rfl, rfl⟩, ?_⟩
  intro h
  obtain ⟨u, v, hu, hv⟩ := (happend [Sizes.least 2] [Sizes.most 4]).1.mp h
  cases hu
  cases hv

end Conformance
