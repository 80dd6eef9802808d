import Conformance.Spec.Same

/-! # What labels stand for

Equality looks at the labels of user functions and never at the functions. Two specifications are
the same just if they become one when each label is given a function, whichever function it is.
-/

namespace Conformance

/-- One function for every label, for each use of user functions. -/
structure Meaning where
  holds : Label → Value → Bool
  canonicalize : Label → Value → Except CanonFault Value
  produce : Label → Unit → Value
  update : Label → List Value → Value
  passes : Label → List Value → Bool

instance : Inhabited Meaning :=
  ⟨⟨fun _ _ => true, fun _ => .ok, fun _ _ => .null, fun _ => .list, fun _ _ => true⟩⟩

def Callback.interpret {α : Type} (meaning : Label → α) (f : Callback α) : Callback α :=
  ⟨f.label, meaning f.label⟩

theorem Callback.same_iff {α : Type} (meaning : Label → α) {f g : Callback α} :
    f.same g = true ↔ f.interpret meaning = g.interpret meaning := by
  rw [same, beq_iff_eq]
  constructor
  · intro h
    rw [interpret, interpret, h]
  · exact congrArg Callback.label

/-! ## Parts without specifications inside -/

section Parts

variable (μ : Meaning)

def Constraint.interpret (c : Constraint) : Constraint := ⟨c.test.interpret μ.holds, c.message⟩

def Default.interpret : Default → Default
  | .value v => .value v
  | .producer f => .producer (f.interpret μ.produce)

def Unset.interpret : Unset → Unset
  | .empty => .empty
  | .falsy => .falsy
  | .custom f => .custom (f.interpret μ.holds)

def Settings.interpret (s : Settings) : Settings where
  optional := s.optional
  default := s.default.interpret μ
  unset := s.unset.interpret μ
  constraints := s.constraints.map (.interpret μ)

def Canonicalizer.interpret (c : Canonicalizer) : Canonicalizer :=
  ⟨c.run.interpret μ.canonicalize, c.fallsThrough⟩

def PostAction.interpret : PostAction → PostAction
  | .update f gate => .update (f.interpret μ.update) (gate.map (.interpret μ.passes))
  | .test f message => .test (f.interpret μ.passes) message

def Post.interpret (p : Post) : Post := ⟨p.first, p.others, p.action.interpret μ⟩

theorem Constraint.same_iff {c d : Constraint} :
    c.same d = true ↔ c.interpret μ = d.interpret μ := by
  rw [same, Bool.and_eq_true, Callback.same_iff μ.holds, beq_iff_eq, interpret, interpret,
    Constraint.mk.injEq]

theorem Constraint.sameAll_iff : {cs ds : List Constraint} →
    (sameAll cs ds = true ↔ cs.map (interpret μ) = ds.map (interpret μ))
  | [], [] => by simp [sameAll]
  | [], _ :: _ => by simp [sameAll]
  | _ :: _, [] => by simp [sameAll]
  | c :: cs, d :: ds => by
    rw [sameAll, Bool.and_eq_true, same_iff μ, sameAll_iff, List.map_cons, List.map_cons,
      List.cons.injEq]

theorem Default.same_iff {d e : Default} : d.same e = true ↔ d.interpret μ = e.interpret μ := by
  cases d <;> cases e <;> simp [same, interpret, Callback.same_iff μ.produce]

theorem Unset.same_iff {u w : Unset} : u.same w = true ↔ u.interpret μ = w.interpret μ := by
  cases u <;> cases w <;> simp [same, interpret, Callback.same_iff μ.holds]

theorem Settings.same_iff {s t : Settings} : s.same t = true ↔ s.interpret μ = t.interpret μ := by
  rw [same, interpret, interpret, Settings.mk.injEq, ← Default.same_iff, ← Unset.same_iff,
    ← Constraint.sameAll_iff]
  simp only [Bool.and_eq_true, beq_iff_eq, and_assoc]

theorem Canonicalizer.same_iff : {c d : Option Canonicalizer} →
    (same c d = true ↔ c.map (interpret μ) = d.map (interpret μ))
  | none, none => by simp [same]
  | none, some _ => by simp [same]
  | some _, none => by simp [same]
  | some c, some d => by
    simp [same, interpret, Callback.same_iff μ.canonicalize]

theorem PostAction.sameGate_iff : {f g : Option (Callback (List Value → Bool))} →
    (sameGate f g = true ↔
      f.map (Callback.interpret μ.passes) = g.map (Callback.interpret μ.passes))
  | none, none => by simp [sameGate]
  | none, some _ => by simp [sameGate]
  | some _, none => by simp [sameGate]
  | some f, some g => by simp [sameGate, Callback.same_iff μ.passes]

theorem PostAction.same_iff {a b : PostAction} :
    a.same b = true ↔ a.interpret μ = b.interpret μ := by
  cases a <;> cases b <;>
    simp [same, interpret, Callback.same_iff μ.update, Callback.same_iff μ.passes,
      sameGate_iff μ]

theorem Post.same_iff {p q : Post} : p.same q = true ↔ p.interpret μ = q.interpret μ := by
  rw [same, interpret, interpret, Post.mk.injEq, ← PostAction.same_iff]
  simp only [refKeys, Bool.and_eq_true, beq_iff_eq, List.cons.injEq, and_assoc]

theorem Post.sameAll_iff : {ps qs : List Post} →
    (sameAll ps qs = true ↔ ps.map (interpret μ) = qs.map (interpret μ))
  | [], [] => by simp [sameAll]
  | [], _ :: _ => by simp [sameAll]
  | _ :: _, [] => by simp [sameAll]
  | p :: ps, q :: qs => by
    rw [sameAll, Bool.and_eq_true, same_iff μ, sameAll_iff, List.map_cons, List.map_cons,
      List.cons.injEq]

end Parts

/-! ## The family of specifications -/

section Family

variable (μ : Meaning)

mutual

def Base.interpret : Base → Base
  | .atom a => .atom a
  | .spec s => .spec s.interpret

def Spec.interpret : Spec → Spec
  | ⟨settings, rule⟩ => ⟨settings.interpret μ, rule.interpret⟩

def Rule.interpret : Rule → Rule
  | .scalar a c => .scalar a (c.map (.interpret μ))
  | .enum members c => .enum members (c.map (.interpret μ))
  | .union types => .union (interpretTypes types)
  | .iter types container => .iter (interpretTypes types) container
  | .seq positions container => .seq (interpretTypes positions) container
  | .mapping m => .mapping m.interpret

def interpretTypes : List Base → List Base
  | [] => []
  | b :: rest => b.interpret :: interpretTypes rest

def Mapping.interpret : Mapping → Mapping
  | ⟨keys, patterns, post, name, unhandledOk⟩ =>
    ⟨interpretKeys keys, interpretPatterns patterns, post.map (.interpret μ), name, unhandledOk⟩

def interpretKeys : List KeyRule → List KeyRule
  | [] => []
  | ⟨key, slot⟩ :: rest => ⟨key, slot.interpret⟩ :: interpretKeys rest

def Slot.interpret : Slot → Slot
  | .type b => .type b.interpret
  | .conditional c => .conditional c.interpret

def Conditional.interpret : Conditional → Conditional
  | ⟨cases, optional, default, applyDefaultSpec⟩ =>
    ⟨interpretCases cases, optional, default, applyDefaultSpec⟩

def interpretCases : List Case → List Case
  | [] => []
  | ⟨value, settings, mapping⟩ :: rest =>
    ⟨value, settings.interpret μ, mapping.interpret⟩ :: interpretCases rest

def interpretPatterns : List PatternRule → List PatternRule
  | [] => []
  | ⟨pattern, type⟩ :: rest => ⟨pattern.interpret, type.interpret⟩ :: interpretPatterns rest

end

/-- Every user function is the one that its label stands for. -/
def Spec.Follows (s : Spec) : Prop := s.interpret μ = s

end Family

/-! ## Equality -/

section Equality

variable (shared : Sharing) (μ : Meaning)

/-- What is shared would be found to be the same by looking into it. -/
theorem Sharing.known_or_iff {s t : Spec} {looked : Bool}
    (h : looked = true ↔ s.interpret μ = t.interpret μ) :
    (shared.known s t || looked) = true ↔ s.interpret μ = t.interpret μ := by
  rw [Bool.or_eq_true, h]
  refine or_iff_right_of_imp fun hknown => ?_
  rw [shared.eq_of_known hknown]

mutual

theorem Base.sameBy_iff : (b c : Base) →
    (b.sameBy shared c = true ↔ b.interpret μ = c.interpret μ)
  | .atom _, .atom _ => by simp [Base.sameBy, Base.interpret]
  | .atom _, .spec _ => by simp [Base.sameBy, Base.interpret]
  | .spec _, .atom _ => by simp [Base.sameBy, Base.interpret]
  | .spec s, .spec t => by
    rw [Base.sameBy, Base.interpret, Base.interpret, Base.spec.injEq, Spec.sameBy_iff s t]

theorem Spec.sameBy_iff : (s t : Spec) →
    (s.sameBy shared t = true ↔ s.interpret μ = t.interpret μ)
  | ⟨s, r⟩, ⟨t, q⟩ => by
    rw [Spec.sameBy]
    refine shared.known_or_iff μ ?_
    rw [Bool.and_eq_true, Settings.same_iff μ, Rule.sameBy_iff r q, Spec.interpret,
      Spec.interpret, Spec.mk.injEq]

theorem Rule.sameBy_iff : (r q : Rule) →
    (r.sameBy shared q = true ↔ r.interpret μ = q.interpret μ)
  | .scalar _ _, q => by
    cases q <;> simp [Rule.sameBy, Rule.interpret, Canonicalizer.same_iff μ]
  | .enum _ _, q => by
    cases q <;> simp [Rule.sameBy, Rule.interpret, Canonicalizer.same_iff μ]
  | .union ts, q => by
    cases q <;> simp [Rule.sameBy, Rule.interpret, sameTypes_iff ts]
  | .iter ts _, q => by
    cases q <;> simp [Rule.sameBy, Rule.interpret, sameTypes_iff ts]
  | .seq ts _, q => by
    cases q <;> simp [Rule.sameBy, Rule.interpret, sameTypes_iff ts]
  | .mapping m, q => by
    cases q <;> simp [Rule.sameBy, Rule.interpret, Mapping.sameBy_iff m]

theorem sameTypes_iff : (bs cs : List Base) →
    (sameTypes shared bs cs = true ↔ interpretTypes μ bs = interpretTypes μ cs)
  | [], [] => by simp [sameTypes, interpretTypes]
  | [], _ :: _ => by simp [sameTypes, interpretTypes]
  | _ :: _, [] => by simp [sameTypes, interpretTypes]
  | b :: bs, c :: cs => by
    simp only [sameTypes, interpretTypes, Bool.and_eq_true, Base.sameBy_iff b c,
      sameTypes_iff bs cs, List.cons.injEq]

theorem Mapping.sameBy_iff : (m n : Mapping) →
    (m.sameBy shared n = true ↔ m.interpret μ = n.interpret μ)
  | ⟨keys, patterns, _, _, _⟩, ⟨keys', patterns', _, _, _⟩ => by
    simp only [Mapping.sameBy, Mapping.interpret, Bool.and_eq_true, beq_iff_eq,
      sameKeys_iff keys keys', samePatterns_iff patterns patterns', Post.sameAll_iff μ,
      Mapping.mk.injEq, and_assoc]

theorem sameKeys_iff : (rs qs : List KeyRule) →
    (sameKeys shared rs qs = true ↔ interpretKeys μ rs = interpretKeys μ qs)
  | [], [] => by simp [sameKeys, interpretKeys]
  | [], ⟨_, _⟩ :: _ => by simp [sameKeys, interpretKeys]
  | ⟨_, _⟩ :: _, [] => by simp [sameKeys, interpretKeys]
  | ⟨k, s⟩ :: rest, ⟨k', s'⟩ :: rest' => by
    simp only [sameKeys, interpretKeys, Bool.and_eq_true, beq_iff_eq, Slot.sameBy_iff s s',
      sameKeys_iff rest rest', List.cons.injEq, KeyRule.mk.injEq]

theorem Slot.sameBy_iff : (s t : Slot) →
    (s.sameBy shared t = true ↔ s.interpret μ = t.interpret μ)
  | .type b, .type c => by simp [Slot.sameBy, Slot.interpret, Base.sameBy_iff b c]
  | .type _, .conditional _ => by simp [Slot.sameBy, Slot.interpret]
  | .conditional _, .type _ => by simp [Slot.sameBy, Slot.interpret]
  | .conditional ⟨cases, _, _, _⟩, .conditional ⟨cases', _, _, _⟩ => by
    simp only [Slot.sameBy, Slot.interpret, Conditional.sameBy, Conditional.interpret,
      Bool.and_eq_true, beq_iff_eq, sameCases_iff cases cases', Slot.conditional.injEq,
      Conditional.mk.injEq, and_assoc]

theorem sameCases_iff : (xs ys : List Case) →
    (sameCases shared xs ys = true ↔ interpretCases μ xs = interpretCases μ ys)
  | [], [] => by simp [sameCases, interpretCases]
  | [], ⟨_, _, _⟩ :: _ => by simp [sameCases, interpretCases]
  | ⟨_, _, _⟩ :: _, [] => by simp [sameCases, interpretCases]
  | ⟨v, s, m⟩ :: rest, ⟨v', s', m'⟩ :: rest' => by
    -- A list of cases holds the two parts of a specification, which is shared or not as a whole.
    have hlooked : (s.same s' && m.sameBy shared m') = true ↔
        Spec.interpret μ ⟨s, .mapping m⟩ = Spec.interpret μ ⟨s', .mapping m'⟩ := by
      rw [Bool.and_eq_true, Settings.same_iff μ, Mapping.sameBy_iff m m']
      simp [Spec.interpret, Rule.interpret]
    simp only [sameCases, interpretCases, Bool.and_eq_true, beq_iff_eq,
      shared.known_or_iff μ hlooked, Spec.interpret, Rule.interpret, sameCases_iff rest rest',
      List.cons.injEq, Case.mk.injEq, Spec.mk.injEq, Rule.mapping.injEq]

theorem samePatterns_iff : (rs qs : List PatternRule) →
    (samePatterns shared rs qs = true ↔ interpretPatterns μ rs = interpretPatterns μ qs)
  | [], [] => by simp [samePatterns, interpretPatterns]
  | [], ⟨_, _⟩ :: _ => by simp [samePatterns, interpretPatterns]
  | ⟨_, _⟩ :: _, [] => by simp [samePatterns, interpretPatterns]
  | ⟨p, t⟩ :: rest, ⟨p', t'⟩ :: rest' => by
    simp only [samePatterns, interpretPatterns, Bool.and_eq_true, Base.sameBy_iff p p',
      Base.sameBy_iff t t', samePatterns_iff rest rest', List.cons.injEq, PatternRule.mk.injEq]

end

end Equality

end Conformance
