import Conformance.Proofs.Stable.Check

/-! # Unions of stable alternatives

The first alternative that does not answer with a mismatch decides about a value. What it gives may
be of another shape than the value, and then an earlier alternative may decide about that.
-/

namespace Conformance

/-! ## Which alternative decides -/

/-- The alternatives passed over answer with a mismatch, and `b` does not. -/
structure Decides (passed : List Base) (b : Base) (v : Value) : Prop where
  mismatch : ∀ a ∈ passed, (a.check v).isMismatch = true
  verdict : (b.check v).isMismatch = false

theorem firstMatch_append (xs ys : List Base) (v : Value) :
    firstMatch (xs ++ ys) v = (firstMatch xs v).or (firstMatch ys v) := by
  induction xs with
  | nil => rfl
  | cons b rest ih =>
    rw [List.cons_append, firstMatch_cons, firstMatch_cons, ih]
    cases (b.check v).isMismatch <;> rfl

theorem firstMatch_eq_some_iff {types : List Base} {v : Value} {o : Outcome Value} :
    firstMatch types v = some o ↔
      ∃ passed b later, types = passed ++ b :: later ∧ Decides passed b v ∧ b.check v = o := by
  induction types with
  | nil => simp [firstMatch]
  | cons b rest ih =>
    rw [firstMatch_cons]
    cases hb : (b.check v).isMismatch with
    | true =>
      rw [if_pos rfl, ih]
      constructor
      · rintro ⟨passed, a, later, rfl, hdecides, ho⟩
        exact ⟨b :: passed, a, later, rfl,
          ⟨List.forall_mem_cons.mpr ⟨hb, hdecides.mismatch⟩, hdecides.verdict⟩, ho⟩
      · rintro ⟨_ | ⟨_, passed⟩, a, later, htypes, hdecides, ho⟩ <;> cases htypes
        · rw [hdecides.verdict] at hb
          cases hb
        · exact ⟨passed, a, later, rfl,
            ⟨(List.forall_mem_cons.mp hdecides.mismatch).2, hdecides.verdict⟩, ho⟩
    | false =>
      rw [if_neg Bool.false_ne_true, Option.some.injEq]
      constructor
      · intro ho
        exact ⟨[], b, rest, rfl, ⟨List.forall_mem_nil _, hb⟩, ho⟩
      · rintro ⟨_ | ⟨_, passed⟩, a, later, htypes, hdecides, ho⟩ <;> cases htypes
        · exact ho
        · rw [(List.forall_mem_cons.mp hdecides.mismatch).1] at hb
          cases hb

/-! ## Checking the answer again -/

section Again

variable {passed later : List Base} {b : Base} {v c : Value}

/-- An alternative that accepts what it has given only has to be reached once more. -/
theorem firstMatch_again_iff (again : b.check c = .ok c) :
    firstMatch (passed ++ b :: later) c = some (.ok c) ↔
      ∀ o, firstMatch passed c = some o → o = .ok c := by
  have hb : firstMatch (b :: later) c = some (.ok c) := by
    rw [firstMatch_cons, again]
    rfl
  rw [firstMatch_append, hb]
  cases firstMatch passed c <;> simp

/-- A union of stable alternatives accepts what it has given, unless an alternative that has been
passed over decides otherwise about it. -/
theorem checkAny_again_iff {types : List Base} (stable : ∀ b ∈ types, b.Stable)
    (accepted : Base.checkAny types v = .ok c) :
    ∃ passed b later, types = passed ++ b :: later ∧ Decides passed b v ∧ b.check v = .ok c ∧
      (Base.checkAny types c = .ok c ↔
        ∀ front a between, passed = front ++ a :: between → Decides front a c →
          a.check c = .ok c) := by
  obtain ⟨passed, b, later, rfl, hdecides, hb⟩ :=
    firstMatch_eq_some_iff.mp (Base.checkAny_ok_iff.mp accepted)
  -- Since `b` takes its own answer back, only alternatives before it can get in the way.
  have again : b.check c = .ok c := stable b (by simp) hb
  refine ⟨passed, b, later, rfl, hdecides, hb, ?_⟩
  rw [Base.checkAny_ok_iff, firstMatch_again_iff again]
  constructor
  · intro h front a between hpassed ha
    exact h _ (firstMatch_eq_some_iff.mpr ⟨front, a, between, hpassed, ha, rfl⟩)
  · intro h o ho
    obtain ⟨front, a, between, hpassed, ha, rfl⟩ := firstMatch_eq_some_iff.mp ho
    exact h front a between hpassed ha

end Again

namespace Account

def number : Base := .atom (.kind .int)

def names : Base :=
  .spec ⟨⟨false, .value .null, .falsy, []⟩, .iter [.atom (.kind .str)] .set⟩

def root : Base :=
  .spec ⟨⟨false, .value .null, .empty, [⟨⟨⟨[]⟩, fun v => v == .str "root"⟩, "is not root"⟩]⟩,
    .scalar (.kind .str) none⟩

def guest : Base :=
  .spec ⟨⟨true, .value (.str "guest"), .empty, []⟩, .scalar (.kind .str) none⟩

theorem stable_names : names.Stable :=
  Base.stable_of_plain names (by simp [names, Base.Plain, Spec.Plain, Rule.Plain, Unset.IsPlain])

theorem stable_root : root.Stable :=
  Base.stable_of_plain root (by simp [root, Base.Plain, Spec.Plain, Rule.Plain, Unset.IsPlain])

theorem stable_guest : guest.Stable :=
  Base.stable_of_plain guest (by simp [guest, Base.Plain, Spec.Plain, Rule.Plain, Unset.IsPlain])

end Account

theorem checkAny_again_names :
    Base.checkAny [Account.number, Account.names] (.list [.str "b", .str "a", .str "b"]) =
        .ok (.set [.str "a", .str "b"]) ∧
      Base.checkAny [Account.number, Account.names] (.set [.str "a", .str "b"]) =
        .ok (.set [.str "a", .str "b"]) := by
  have stable : ∀ b ∈ [Account.number, Account.names], b.Stable :=
    List.forall_mem_cons.mpr ⟨Base.stable_of_plain _ trivial,
      List.forall_mem_singleton.mpr Account.stable_names⟩
  have accepted : Base.checkAny [Account.number, Account.names]
      (.list [.str "b", .str "a", .str "b"]) = .ok (.set [.str "a", .str "b"]) := rfl
  obtain ⟨passed, b, later, htypes, -, -, hagain⟩ := checkAny_again_iff stable accepted
  refine ⟨accepted, hagain.mpr fun front a between hpassed ha => ?_⟩
  have hmem : a ∈ [Account.number, Account.names] := by
    rw [htypes, hpassed]
    simp
  rcases List.mem_pair.mp hmem with rfl | rfl
  · exact absurd ha.verdict (by decide)
  · rfl

/-- A default may be refused by an alternative that the value it stands for has passed over. -/
theorem checkAny_again_refused :
    (∀ b ∈ [Account.root, Account.guest], b.Stable) ∧
      Base.checkAny [Account.root, Account.guest] .null = .ok (.str "guest") ∧
      Base.checkAny [Account.root, Account.guest] (.str "guest") ≠ .ok (.str "guest") :=
  ⟨List.forall_mem_cons.mpr ⟨Account.stable_root,
    List.forall_mem_singleton.mpr Account.stable_guest⟩, rfl, nofun⟩

end Conformance
