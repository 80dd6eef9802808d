import Conformance.Callback
import Conformance.Outcome

/-! # Constraints on values of the right structure -/

namespace Conformance

structure Constraint where
  test : Callback (Value → Bool)
  message : String

namespace Constraint

def holds (c : Constraint) (v : Value) : Bool := c.test.run v

def same (c d : Constraint) : Bool := c.test.same d.test && c.message == d.message

def sameAll : List Constraint → List Constraint → Bool
  | [], [] => true
  | c :: cs, d :: ds => c.same d && sameAll cs ds
  | _, _ => false

def broken (cs : List Constraint) (v : Value) : List String :=
  (cs.filter fun c => !c.holds v).map message

/-- How broken constraints are reported depends on how many were declared. -/
def violation? (cs : List Constraint) (v : Value) : Option Invalid :=
  match broken cs v with
  | [] => none
  | m :: rest =>
    if cs.length = 1 then some (.simple ("Does not meet value constraint: " ++ m))
    else
      some (.ofFailures "Does not meet value constraints" ((m :: rest).map (Failure.leaf none)))

def enforce (cs : List Constraint) (v : Value) : Outcome Value :=
  match violation? cs v with
  | none => .ok v
  | some e => .invalid e

theorem violation?_eq_none_iff (cs : List Constraint) (v : Value) :
    violation? cs v = none ↔ ∀ c ∈ cs, c.holds v = true := by
  have : violation? cs v = none ↔ broken cs v = [] := by
    unfold violation?
    split
    · simp [*]
    · split <;> simp [*]
  rw [this]
  simp [broken]

end Constraint

end Conformance
