import Conformance.Proofs.Mapping.Meaning
import Conformance.Proofs.Result
import Conformance.Proofs.Stable.Elements
import Conformance.Proofs.Value.Sorted

/-! # Collections, element by element

A collection is accepted if each of its elements is, and gives what its elements give, gathered in
their order. Otherwise each element that is refused is reported at its place.
-/

namespace Conformance

/-! ## Answers on elements -/

def rejection? (context : String) : Outcome Value × Nat → Option Failure
  | (.invalid e, i) => some (.caused (some (.index i)) (context ++ toString i ++ " is invalid") e)
  | _ => none

/-- One failure for each answer that refuses, in the order of the answers. -/
def rejections (context : String) (answers : List (Outcome Value)) : List Failure :=
  answers.zipIdx.filterMap (rejection? context)

section Answers

variable {context summary : String} {container : Container} {answers : List (Outcome Value)}

/-- Without defects all answers are taken in. -/
theorem gatherAnswers_eq (unbroken : ∀ a ∈ answers, ∀ d, a ≠ .defect d) (place : Nat) :
    gatherAnswers context place answers =
      .ok (answers.filterMap Outcome.value?,
        (answers.zipIdx place).filterMap (rejection? context)) := by
  induction answers generalizing place with
  | nil => rfl
  | cons a rest ih =>
    obtain ⟨ha, hrest⟩ := List.forall_mem_cons.mp unbroken
    rw [gatherAnswers, ih hrest]
    cases a with
    | ok v => rfl
    | invalid e => rfl
    | defect d => exact absurd rfl (ha d)

/-- Elements become the list or the tuple of them, or the set that has them for its members. -/
inductive Container.Gathers : Container → List Value → Value → Prop
  | list (items) : Gathers .list items (.list items)
  | tuple (items) : Gathers .tuple items (.tuple items)
  | set {items members} : Value.Ascending members → (∀ w, w ∈ members ↔ w ∈ items) →
      Gathers .set items (.set members)

theorem Container.gathers_iff {items : List Value} {out : Value} :
    container.Gathers items out ↔ container.collect items = out := by
  constructor
  · intro h
    cases h with
    | list => rfl
    | tuple => rfl
    | set hascending hmem =>
      refine congrArg Value.set ((Value.ascending_members items).ext hascending fun w => ?_)
      rw [Value.mem_members, hmem]
  · rintro rfl
    cases container with
    | list => exact .list items
    | tuple => exact .tuple items
    | set => exact .set (Value.ascending_members items) fun w => Value.mem_members

/-- What is said about a collection, by the answers on its elements. -/
structure Pointwise (context summary : String) (container : Container)
    (answers : List (Outcome Value)) (result : Outcome Value) : Prop where
  accepted_iff : (∃ out, result = .ok out) ↔ ∀ a ∈ answers, ∃ w, a = .ok w
  /-- The checked elements are gathered, each in the place of its element. -/
  collected : ∀ checked, List.Forall₂ (fun a w => a = .ok w) answers checked →
    result = .ok (container.collect checked)
  gathered : ∀ checked, List.Forall₂ (fun a w => a = .ok w) answers checked →
    ∀ out, result = .ok out ↔ container.Gathers checked out
  /-- Each element that is refused is reported once, at its index and with its own error. -/
  refused : (∀ a ∈ answers, ∀ d, a ≠ .defect d) → (∃ a ∈ answers, ∀ w, a ≠ .ok w) →
    result = .invalid (.ofFailures summary (rejections context answers))

theorem close_gatherAnswers {checked : List Value}
    (h : List.Forall₂ (fun a w => a = .ok w) answers checked) :
    (gatherAnswers context 0 answers).close summary container = .ok (container.collect checked) :=
  Gathered.close_ok_iff.mpr ⟨checked, gatherAnswers_ok_iff.mpr h, rfl⟩

theorem pointwise_close : Pointwise context summary container answers
    ((gatherAnswers context 0 answers).close summary container) where
  accepted_iff := by
    rw [← Result.exists_forall₂_iff]
    simp only [Gathered.close_ok_iff, gatherAnswers_ok_iff]
    constructor
    · rintro ⟨-, checked, hchecked, -⟩
      exact ⟨checked, hchecked⟩
    · rintro ⟨checked, hchecked⟩
      exact ⟨_, checked, hchecked, rfl⟩
  collected checked h := close_gatherAnswers h
  gathered checked h out := by
    rw [close_gatherAnswers h, Outcome.ok.injEq, Container.gathers_iff]
  refused unbroken h := by
    obtain ⟨a, ha, hrefused⟩ := h
    have hgathered : gatherAnswers context 0 answers =
        .ok (answers.filterMap Outcome.value?, rejections context answers) :=
      gatherAnswers_eq unbroken 0
    cases hfailures : rejections context answers with
    | nil =>
      rw [hfailures, gatherAnswers_ok_iff] at hgathered
      obtain ⟨w, hw⟩ := Result.exists_forall₂_iff.mp ⟨_, hgathered⟩ a ha
      exact absurd hw (hrefused w)
    | cons f rest =>
      rw [hgathered, hfailures]
      rfl

end Answers

/-! ## Iterations and sequences -/

theorem Value.elements_eq_some_iff {v : Value} {items : List Value} :
    v.elements? = some items ↔ v = .list items ∨ v = .tuple items ∨ v = .set items := by
  cases v <;> simp [Value.elements?]

theorem Value.sequence_eq_some_iff {v : Value} {items : List Value} :
    v.sequence? = some items ↔ v = .list items ∨ v = .tuple items := by
  cases v <;> simp [Value.sequence?]

namespace Rule

variable {types positions : List Base} {container : Container} {v v' out : Value}
  {items items' : List Value}

theorem pointwise_iter (h : v.elements? = some items) :
    Pointwise "Index " "Items do not conform with iterable spec" container
      (items.map (Base.checkAny types)) ((Rule.iter types container).check v) := by
  have hcheck : (Rule.iter types container).check v =
      (gather (Base.checkAny types) 0 items).close "Items do not conform with iterable spec"
        container := by
    simp only [Rule.check, h]
    rfl
  rw [hcheck, gather_eq]
  exact pointwise_close

theorem pointwise_seq (h : v.sequence? = some items) (length : items.length = positions.length) :
    Pointwise "Sequence index " "Sequence does not conform with spec" container
      (List.zipWith Base.check positions items) ((Rule.seq positions container).check v) := by
  have hcheck : (Rule.seq positions container).check v =
      (checkPositions 0 positions items).close "Sequence does not conform with spec"
        container := by
    simp only [Rule.check, h, length, if_true]
  rw [hcheck, checkPositions_eq]
  exact pointwise_close

/-- The checked elements are what the elements are checked to, whatever their order. -/
theorem mem_checked_iff {check : Value → Outcome Value} {checked : List Value}
    (h : List.Forall₂ (fun v w => check v = .ok w) items checked) {w : Value} :
    w ∈ checked ↔ ∃ x ∈ items, check x = .ok w := by
  have hmap : items.map check = checked.map .ok := Result.map_eq_map_iff.mpr h
  rw [← List.mem_map, hmap, List.mem_map]
  simp

/-- A set of checked elements depends on which elements there are, and on nothing else. -/
theorem check_iter_set (hv : v.elements? = some items) (hv' : v'.elements? = some items')
    (same : ∀ x, x ∈ items' ↔ x ∈ items) (h : (Rule.iter types .set).check v = .ok out) :
    (Rule.iter types .set).check v' = .ok out := by
  obtain ⟨_, checked, hitems, hchecked, rfl⟩ := iter_check_ok_iff.mp h
  obtain rfl := Option.some.inj (hv.symm.trans hitems)
  have haccepted : ∀ x ∈ items', ∃ w, Base.checkAny types x = .ok w := fun x hx =>
    Result.exists_forall₂_iff.mp ⟨checked, hchecked⟩ x ((same x).mp hx)
  obtain ⟨checked', hchecked'⟩ := Result.exists_forall₂_iff.mpr haccepted
  have hmembers : Value.members checked = Value.members checked' := by
    refine (Value.ascending_members _).ext (Value.ascending_members _) fun w => ?_
    rw [Value.mem_members, Value.mem_members, mem_checked_iff hchecked, mem_checked_iff hchecked']
    simp only [same]
  exact iter_check_ok_iff.mpr ⟨items', checked', hv', hchecked', congrArg Value.set hmembers⟩

end Rule

/-- Lists, tuples and sets are checked element by element by an iteration, lists and tuples of the
right length position by position by a sequence. The elements of a set come in ascending order. What
is gathered into a set depends on which elements there are only. Everything else is refused as a
whole. -/
theorem check_pointwise {settings : Settings} (required : settings.optional = false)
    (unconstrained : settings.constraints = []) (types positions : List Base)
    (container : Container) (v : Value) :
    (∀ items, v = .list items ∨ v = .tuple items ∨ v = .set items →
      Pointwise "Index " "Items do not conform with iterable spec" container
        (items.map (Base.checkAny types))
        ((⟨settings, .iter types container⟩ : Spec).check v)) ∧
    (∀ items, v.Sorted → v = .set items → Value.Ascending items) ∧
    (∀ items, v = .list items ∨ v = .tuple items ∨ v = .set items →
      ∀ v' items', v' = .list items' ∨ v' = .tuple items' ∨ v' = .set items' →
        (∀ x, x ∈ items' ↔ x ∈ items) →
          ∀ out, (⟨settings, .iter types .set⟩ : Spec).check v = .ok out →
            (⟨settings, .iter types .set⟩ : Spec).check v' = .ok out) ∧
    ((¬ ∃ items, v = .list items ∨ v = .tuple items ∨ v = .set items) →
      (⟨settings, .iter types container⟩ : Spec).check v =
        .invalid (.mismatch "Must be iterable")) ∧
    (∀ items, v = .list items ∨ v = .tuple items → items.length = positions.length →
      Pointwise "Sequence index " "Sequence does not conform with spec" container
        (List.zipWith Base.check positions items)
        ((⟨settings, .seq positions container⟩ : Spec).check v)) ∧
    (∀ items, v = .list items ∨ v = .tuple items → items.length ≠ positions.length →
      (⟨settings, .seq positions container⟩ : Spec).check v =
        .invalid (.simple
          ("Sequence must have exactly " ++ toString positions.length ++ " elements"))) ∧
    ((¬ ∃ items, v = .list items ∨ v = .tuple items) →
      (⟨settings, .seq positions container⟩ : Spec).check v =
        .invalid (.mismatch "Must be a sequence")) := by
  have hiter : ∀ container v, (⟨settings, .iter types container⟩ : Spec).check v =
      (Rule.iter types container).check v := fun _ _ =>
    Spec.check_of_required required unconstrained fun _ => rfl
  have hseq : (⟨settings, .seq positions container⟩ : Spec).check v =
      (Rule.seq positions container).check v :=
    Spec.check_of_required required unconstrained fun _ => rfl
  simp only [hiter, hseq, ← Value.elements_eq_some_iff, ← Value.sequence_eq_some_iff]
  refine ⟨fun items h => Rule.pointwise_iter h, ?_, ?_, fun h => ?_,
    fun items h length => Rule.pointwise_seq h length, fun items h length => ?_, fun h => ?_⟩
  · rintro items sorted rfl
    exact (Value.sorted_iff.mp sorted).1
  · exact fun items hv v' items' hv' same out => Rule.check_iter_set hv hv' same
  · have hnone : v.elements? = none := by simpa [Option.eq_none_iff_forall_ne_some] using h
    simp only [Rule.check, hnone]
  · simp only [Rule.check, h, if_neg length]
  · have hnone : v.sequence? = none := by simpa [Option.eq_none_iff_forall_ne_some] using h
    simp only [Rule.check, hnone]

namespace Readings

def types : List Base := [.atom (.kind .int)]

def given : Value := .tuple [.int 7, .str "high", .int 4, .null]

def error : Invalid := .mismatch "Must be int"

end Readings

/-- Both readings that are no numbers are reported, of numbers a set remains, and a set becomes a
list in the order of its members. -/
theorem check_pointwise_readings :
    (⟨.required, .iter Readings.types .list⟩ : Spec).check Readings.given =
        .invalid (.ofFailures "Items do not conform with iterable spec"
          [.caused (some (.index 1)) "Index 1 is invalid" Readings.error,
            .caused (some (.index 3)) "Index 3 is invalid" Readings.error]) ∧
      (⟨.required, .iter Readings.types .set⟩ : Spec).check (.list [.int 7, .int 4, .int 7]) =
        .ok (.set [.int 4, .int 7]) ∧
      (⟨.required, .seq Readings.types .tuple⟩ : Spec).check (.list [.int 7]) =
        .ok (.tuple [.int 7]) ∧
      (⟨.required, .iter Readings.types .list⟩ : Spec).check (.set [.int 4, .int 7]) =
        .ok (.list [.int 4, .int 7]) := by
  have refused := ((@check_pointwise .required rfl rfl Readings.types Readings.types .list
    Readings.given).1 _ (.inr (.inl rfl))).refused
  have repeated := (@check_pointwise .required rfl rfl Readings.types Readings.types .set
    (.set [.int 4, .int 7])).2.2.1 _ (.inr (.inr rfl))
  have collected := ((@check_pointwise .required rfl rfl Readings.types Readings.types .tuple
    (.list [.int 7])).2.2.2.2.1 _ (.inl rfl) rfl).collected
  have listed := ((@check_pointwise .required rfl rfl Readings.types Readings.types .list
    (.set [.int 4, .int 7])).1 _ (.inr (.inr rfl))).gathered
  have answers : [.int 7, .str "high", .int 4, .null].map (Base.checkAny Readings.types) =
      [.ok (.int 7), .invalid Readings.error, .ok (.int 4), .invalid Readings.error] := rfl
  rw [answers] at refused
  exact ⟨refused (by simp) ⟨_, List.mem_cons_of_mem _ List.mem_cons_self, nofun⟩,
    repeated _ _ (.inl rfl) (fun x => by simp; tauto) _ rfl, collected _ (.cons rfl .nil),
    (listed _ (.cons rfl (.cons rfl .nil)) _).mpr (.list _)⟩

end Conformance
