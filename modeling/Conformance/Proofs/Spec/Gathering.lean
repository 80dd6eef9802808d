import Conformance.Spec.Check
import Mathlib.Data.List.Forall2

/-! # Answers on elements, put together

Iterations and sequences go through their elements each in a loop of its own. What the loop gives
depends only on what it is answered on the elements.
-/

namespace Conformance

/-- The answers on elements put together, counted from a place on. -/
def gatherAnswers (context : String) : Nat → List (Outcome Value) → Gathered
  | _, [] => .ok ([], [])
  | place, a :: rest =>
    gatherOne place (context ++ toString place ++ " is invalid") a
      (gatherAnswers context (place + 1) rest)

theorem gather_eq (check : Value → Outcome Value) (place : Nat) (items : List Value) :
    gather check place items = gatherAnswers "Index " place (items.map check) := by
  induction items generalizing place with
  | nil => rfl
  | cons v rest ih => rw [gather, ih, List.map_cons, gatherAnswers]

theorem checkPositions_eq (place : Nat) (positions : List Base) (items : List Value) :
    checkPositions place positions items =
      gatherAnswers "Sequence index " place (List.zipWith Base.check positions items) := by
  induction positions generalizing place items with
  | nil => rfl
  | cons b bases ih =>
    cases items with
    | nil => rfl
    | cons v rest => rw [checkPositions, ih, List.zipWith_cons_cons, gatherAnswers]

theorem gatherOne_ok_iff {place : Nat} {context : String} {o : Outcome Value} {rest : Gathered}
    {checked : List Value} :
    gatherOne place context o rest = .ok (checked, []) ↔
      ∃ v vs, o = .ok v ∧ rest = .ok (vs, []) ∧ checked = v :: vs := by
  constructor
  · intro h
    cases o with
    | ok v =>
      rcases rest with d | ⟨vs, fs⟩
      · cases h
      · cases h
        exact ⟨v, vs, rfl, rfl, rfl⟩
    | invalid e => rcases rest with d | ⟨vs, fs⟩ <;> cases h
    | defect d => cases h
  · rintro ⟨v, vs, rfl, rfl, rfl⟩
    rfl

/-- Elements are gathered without failures if each one is accepted. -/
theorem gatherAnswers_ok_iff {context : String} {place : Nat} {answers : List (Outcome Value)}
    {checked : List Value} :
    gatherAnswers context place answers = .ok (checked, []) ↔
      List.Forall₂ (fun a w => a = .ok w) answers checked := by
  induction answers generalizing place checked with
  | nil => simp [gatherAnswers, eq_comm]
  | cons a rest ih => simp only [gatherAnswers, gatherOne_ok_iff, ih, List.forall₂_cons_left_iff]

theorem gather_ok_iff {check : Value → Outcome Value} {place : Nat} {items checked : List Value} :
    gather check place items = .ok (checked, []) ↔
      List.Forall₂ (fun v c => check v = .ok c) items checked := by
  rw [gather_eq, gatherAnswers_ok_iff, List.forall₂_map_left_iff]

theorem checkPositions_ok_iff {place : Nat} {positions : List Base} {items checked : List Value} :
    checkPositions place positions items = .ok (checked, []) ↔
      List.Forall₂ (fun a w => a = .ok w) (List.zipWith Base.check positions items) checked := by
  rw [checkPositions_eq, gatherAnswers_ok_iff]

theorem Gathered.close_ok_iff {summary : String} {container : Container} {g : Gathered}
    {c : Value} :
    g.close summary container = .ok c ↔
      ∃ checked, g = .ok (checked, []) ∧ c = container.collect checked := by
  rcases g with d | ⟨checked, _ | ⟨f, rest⟩⟩ <;> simp [Gathered.close, eq_comm]

end Conformance
