import Conformance.Invalid

/-! # Results of a check -/

namespace Conformance

/-- A user function broke off for a reason of its own, which is no verdict on the value. -/
structure Defect where
  text : String
deriving DecidableEq

def Defect.message (d : Defect) : String := "Callback failed during check: " ++ d.text

inductive Outcome (α : Type) where
  | ok (a : α)
  | invalid (e : Invalid)
  | defect (d : Defect)

namespace Outcome

variable {α β : Type}

def bind (x : Outcome α) (f : α → Outcome β) : Outcome β :=
  match x with
  | .ok a => f a
  | .invalid e => .invalid e
  | .defect d => .defect d

def map (f : α → β) : Outcome α → Outcome β
  | .ok a => .ok (f a)
  | .invalid e => .invalid e
  | .defect d => .defect d

def isMismatch : Outcome α → Bool
  | .invalid e => e.isMismatch
  | _ => false

@[simp] theorem ok_bind (a : α) (f : α → Outcome β) : (ok a).bind f = f a := rfl

@[simp] theorem invalid_bind (e : Invalid) (f : α → Outcome β) :
    (invalid e).bind f = .invalid e := rfl

@[simp] theorem defect_bind (d : Defect) (f : α → Outcome β) :
    (defect d).bind f = .defect d := rfl

end Outcome

end Conformance
