import Conformance.Proofs.Mapping.Meaning
import Conformance.Proofs.Spec.Derivation
import Conformance.Proofs.Stable.Union
import Mathlib.Logic.Relation

/-! # Unions in unions

A list of types is asked in its order until one of them does not answer with a mismatch. Where some
of the types stand in a union of their own, they are asked in the same order, and the union answers
with a mismatch just when all of them do.
-/

namespace Conformance

/-! ## Lists of types that answer alike -/

/-- Two lists of types answer alike to a value, but for the names that a mismatch lists. -/
structure AnswersAlike (types types' : List Base) (v : Value) : Prop where
  isMismatch_eq : (Base.checkAny types v).isMismatch = (Base.checkAny types' v).isMismatch
  eq_of_match : (Base.checkAny types v).isMismatch = false →
    Base.checkAny types v = Base.checkAny types' v
  names_of_mismatch : (Base.checkAny types v).isMismatch = true →
    Base.checkAny types v = .invalid (.mismatch (mustBe (typeNames types))) ∧
      Base.checkAny types' v = .invalid (.mismatch (mustBe (typeNames types')))

section Lists

variable {types types' inner front back : List Base} {b : Base} {v : Value}

theorem isMismatch_of_firstMatch {o : Outcome Value} (h : firstMatch types v = some o) :
    o.isMismatch = false := by
  obtain ⟨passed, b, later, -, hdecides, rfl⟩ := firstMatch_eq_some_iff.mp h
  exact hdecides.verdict

theorem AnswersAlike.of_firstMatch_eq (h : firstMatch types v = firstMatch types' v) :
    AnswersAlike types types' v := by
  have hleft : Base.checkAny types v = answer types (firstMatch types' v) := by
    rw [Base.checkAny, h]
  have hright : Base.checkAny types' v = answer types' (firstMatch types' v) := rfl
  cases hfirst : firstMatch types' v with
  | none =>
    rw [hfirst] at hleft hright
    refine ⟨?_, fun hmatch => ?_, fun _ => ⟨hleft, hright⟩⟩
    · rw [hleft, hright]
      rfl
    · rw [hleft] at hmatch
      cases hmatch
  | some o =>
    rw [hfirst] at hleft hright
    have heq : Base.checkAny types v = Base.checkAny types' v := hleft.trans hright.symm
    refine ⟨congrArg _ heq, fun _ => heq, fun hmismatch => ?_⟩
    rw [hleft, answer, isMismatch_of_firstMatch hfirst] at hmismatch
    cases hmismatch

/-- A type that answers like a list of types does may stand for these types. -/
theorem firstMatch_replace (h : firstMatch [b] v = firstMatch inner v) :
    firstMatch (front ++ b :: back) v = firstMatch (front ++ inner ++ back) v := by
  have hcons : firstMatch (b :: back) v = firstMatch (inner ++ back) v := by
    rw [← List.singleton_append, firstMatch_append, firstMatch_append, h]
  rw [List.append_assoc, firstMatch_append, firstMatch_append, hcons]

/-- A union passes a mismatch of all its types on as a mismatch of its own. -/
theorem firstMatch_singleton_of_checkAny (h : b.check v = Base.checkAny inner v) :
    firstMatch [b] v = firstMatch inner v := by
  rw [firstMatch_cons, h, Base.checkAny]
  cases hinner : firstMatch inner v with
  | none => rfl
  | some o => rw [answer, isMismatch_of_firstMatch hinner, if_neg Bool.false_ne_true]

end Lists

/-! ## Writing a union out -/

/-- A union is written out in the list of types in which it stands. -/
inductive Opens : List Base → List Base → Prop
  | intro {settings : Settings} {inner : List Base} (front back : List Base)
      (required : settings.optional = false) (unconstrained : settings.constraints = []) :
      Opens (front ++ .spec ⟨settings, .union inner⟩ :: back) (front ++ inner ++ back)

theorem Opens.firstMatch_eq {types types' : List Base} (h : Opens types types') (v : Value) :
    firstMatch types v = firstMatch types' v := by
  obtain ⟨front, back, required, unconstrained⟩ := h
  exact firstMatch_replace (firstMatch_singleton_of_checkAny
    (Spec.check_of_required required unconstrained fun _ => rfl))

/-- Unions may be written out at any depth, and in any order. -/
theorem answersAlike_of_opens {types types' : List Base}
    (h : Relation.ReflTransGen Opens types types') (v : Value) : AnswersAlike types types' v := by
  refine .of_firstMatch_eq ?_
  induction h with
  | refl => rfl
  | tail _ hopens ih => exact ih.trans (hopens.firstMatch_eq v)

theorem Options.resolve_optional_iff {o : Options} {d : Default} {u : Unset} :
    (o.resolve d u).optional = true ↔ o.optional = some true := by
  rcases ho : o.optional with _ | _ | _ <;> simp [resolve, ho]

theorem Options.resolve_required {o : Options} (required : o.optional ≠ some true) {d : Default}
    {u : Unset} : (o.resolve d u).optional = false :=
  Bool.eq_false_iff.mpr fun hoptional => required (resolve_optional_iff.mp hoptional)

theorem Base.isNull_iff {b : Base} : b.isNull = true ↔ b = .atom .null := by
  cases b with
  | atom a => cases a <;> simp [isNull]
  | spec s => simp [isNull]

theorem Base.any_isNull_iff {types : List Base} :
    types.any isNull = true ↔ .atom .null ∈ types := by
  rw [List.any_eq_true]
  constructor
  · rintro ⟨b, hb, hnull⟩
    exact isNull_iff.mp hnull ▸ hb
  · intro h
    exact ⟨_, h, rfl⟩

/-- Without null among its types a union is built as it stands. -/
theorem Spec.union_of_required {inner : List Base} {o : Options} (nonnull : .atom .null ∉ inner)
    (required : o.optional ≠ some true) :
    Spec.union inner o = .ok ⟨o.resolve (.value .null) .empty, .union inner⟩ := by
  have hoptional : (o.resolve (.value .null) .empty).optional = false :=
    Options.resolve_required required
  have hnull : inner.any Base.isNull = false :=
    Bool.eq_false_iff.mpr fun h => nonnull (Base.any_isNull_iff.mp h)
  refine (assemble_of_agrees (s := ⟨_, .union inner⟩) trivial ?_).mpr ⟨rfl, fun h => ?_⟩
  · exact hoptional.trans hnull.symm
  · exact absurd (hoptional.symm.trans h) Bool.false_ne_true

/-- A union that is neither optional nor constrained answers like its types in its place. -/
theorem checkAny_flatten {inner : List Base} {o : Options} (nonnull : .atom .null ∉ inner)
    (required : o.optional ≠ some true) (unconstrained : o.constraints = [])
    (front back : List Base) :
    ∃ u, Spec.union inner o = .ok u ∧ u.isOptional = false ∧
      ∀ v, AnswersAlike (front ++ .spec u :: back) (front ++ inner ++ back) v := by
  refine ⟨_, Spec.union_of_required nonnull required, Options.resolve_required required,
    fun v => ?_⟩
  exact answersAlike_of_opens
    (.single (.intro front back (Options.resolve_required required) unconstrained)) v

namespace Port

def isPositive : Value → Bool
  | .int n => 0 < n
  | _ => false

def number : Base :=
  .spec ⟨⟨false, .value .null, .empty, [⟨⟨⟨[]⟩, isPositive⟩, "is not positive"⟩]⟩,
    .scalar (.kind .int) none⟩

def types : List Base := [number, .atom (.kind .str)]

def front : List Base := [.atom .null]

def back : List Base := [.atom (.kind .int)]

end Port

/-- A number that is not positive is refused, inside the union as well as in its place, although
another type after it takes any number. -/
theorem checkAny_flatten_port :
    ∃ u, Spec.union Port.types {} = .ok u ∧
      Base.checkAny (Port.front ++ .spec u :: Port.back) (.int 0) =
        Base.checkAny (Port.front ++ Port.types ++ Port.back) (.int 0) ∧
      (Base.checkAny (Port.front ++ .spec u :: Port.back) (.int 0)).isMismatch = false ∧
      Base.checkAny (Port.front ++ .spec u :: Port.back) (.list []) =
        .invalid (.mismatch "Must be one of: null, int/str, int") ∧
      Base.checkAny (Port.front ++ Port.types ++ Port.back) (.list []) =
        .invalid (.mismatch "Must be one of: null, int, str, int") := by
  obtain ⟨u, hbuilt, -, halike⟩ := @checkAny_flatten Port.types {}
    (by simp [Port.types, Port.number]) nofun rfl Port.front Port.back
  obtain rfl : _ = u := Except.ok.inj hbuilt
  have hnumber := halike (.int 0)
  have hlist := (halike (.list [])).names_of_mismatch rfl
  exact ⟨_, hbuilt, hnumber.eq_of_match rfl, rfl, hlist.1, hlist.2⟩

end Conformance
