import Conformance.Constraint
import Conformance.Pattern.Reader
import Conformance.Pattern.Search
import Conformance.SchemaError
import Conformance.Value.Collection

/-! # Common constraints

A value that a comparison does not apply to, such as a number that is asked for its length, breaks
the constraint.
-/

namespace Conformance.Constraint

def hasLength (v : Value) (test : Nat → Bool) : Bool := v.length?.any test

def relates (v bound : Value) (test : Ordering → Bool) : Bool := (v.relate? bound).any test

def minLength (l : Label) (n : Nat) : Constraint :=
  ⟨⟨l, fun v => hasLength v (n ≤ ·)⟩, "Must have length >= " ++ toString n⟩

def maxLength (l : Label) (n : Nat) : Constraint :=
  ⟨⟨l, fun v => hasLength v (· ≤ n)⟩, "Must have length <= " ++ toString n⟩

def lengthBetween (l : Label) (least most : Nat) : Constraint :=
  ⟨⟨l, fun v => hasLength v fun n => least ≤ n && n ≤ most⟩,
    "Must have length between " ++ toString least ++ "-" ++ toString most⟩

def exactLength (l : Label) (n : Nat) : Constraint :=
  ⟨⟨l, fun v => hasLength v (· == n)⟩, "Must have exact length " ++ toString n⟩

def containing (l : Label) (needle : Value) : Constraint :=
  ⟨⟨l, fun v => v.contains needle⟩, "Must contain " ++ needle.render⟩

def atLeast (l : Label) (bound : Value) : Constraint :=
  ⟨⟨l, fun v => relates v bound Ordering.isGE⟩, "Must be >= " ++ bound.render⟩

def atMost (l : Label) (bound : Value) : Constraint :=
  ⟨⟨l, fun v => relates v bound Ordering.isLE⟩, "Must be <= " ++ bound.render⟩

def between (l : Label) (least most : Value) : Constraint :=
  ⟨⟨l, fun v => relates v least Ordering.isGE && relates v most Ordering.isLE⟩,
    "Must be between " ++ least.render ++ "-" ++ most.render⟩

def ofPattern (l : Label) (p : Pattern) (message : String) : Constraint :=
  ⟨⟨l, fun v => v.toText?.any p.occursIn⟩, message⟩

def matching (l : Label) (source message : String) : Built Constraint :=
  match Pattern.read source with
  | .ok p => .ok (ofPattern l p message)
  | .error fault => .error (.pattern fault.message)

end Conformance.Constraint
