import Conformance.Constraint
import Conformance.Value.Kind

/-! # Settings that every specification carries -/

namespace Conformance

inductive Default where
  | value (v : Value)
  | producer (f : Callback (Unit → Value))

namespace Default

def produce : Default → Value
  | .value v => v
  | .producer f => f.run ()

def same : Default → Default → Bool
  | .value v, .value w => v == w
  | .producer f, .producer g => f.same g
  | _, _ => false

end Default

inductive Unset where
  /-- Null and whatever is empty, but no number and no truth value. -/
  | empty
  /-- Everything that is not truthy. -/
  | falsy
  | custom (f : Callback (Value → Bool))

namespace Unset

def holds : Unset → Value → Bool
  | .empty, v => !v.isTruthy && !Kind.number.includes v && !Kind.bool.includes v
  | .falsy, v => !v.isTruthy
  | .custom f, v => f.run v

def same : Unset → Unset → Bool
  | .empty, .empty => true
  | .falsy, .falsy => true
  | .custom f, .custom g => f.same g
  | _, _ => false

theorem falsy_of_empty {v : Value} (h : empty.holds v = true) : falsy.holds v = true := by
  simp_all [holds]

end Unset

structure Settings where
  optional : Bool
  default : Default
  unset : Unset
  constraints : List Constraint

namespace Settings

def same (s t : Settings) : Bool :=
  s.optional == t.optional && s.default.same t.default && s.unset.same t.unset
    && Constraint.sameAll s.constraints t.constraints

def replaces (s : Settings) (v : Value) : Bool := s.optional && s.unset.holds v

def given (s : Settings) (v : Value) : Value := if s.replaces v then s.default.produce else v

/-- Constraints are not asked about a value that stands for the default. -/
def enforce (s : Settings) (v : Value) : Outcome Value :=
  if s.replaces v then .ok v else Constraint.enforce s.constraints v

end Settings

structure Options where
  optional : Option Bool := none
  default : Option Default := none
  unset : Option Unset := none
  constraints : List Constraint := []

namespace Options

def resolve (o : Options) (default : Default) (unset : Unset) : Settings where
  optional := o.optional.getD false
  default := o.default.getD default
  unset := o.unset.getD unset
  constraints := o.constraints

def ofSettings (s : Settings) : Options where
  optional := some s.optional
  default := some s.default
  unset := some s.unset
  constraints := s.constraints

def withDefault (o : Options) (v : Value) : Options :=
  { o with optional := some true, default := some (.value v) }

theorem resolve_ofSettings (s : Settings) (d : Default) (u : Unset) :
    (ofSettings s).resolve d u = s := rfl

end Options

end Conformance
