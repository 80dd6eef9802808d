import Conformance.Post
import Conformance.Settings

/-! # Specifications

A specification is a rule together with settings. Rules refer to types, and a type may again be a
specification, so all of these are one family.
-/

namespace Conformance

/-! ## Parts without specifications inside -/

/-- A class of values with nothing to refine. -/
inductive Atom where
  | kind (k : Kind)
  | literal (b : Bool)
  | null
deriving DecidableEq

namespace Atom

def name : Atom → String
  | .kind k => k.name
  | .literal b => if b then "true" else "false"
  | .null => "null"

def includes : Atom → Value → Bool
  | .kind k, v => k.includes v
  | .literal b, v => v == .bool b
  | .null, v => v.isNull

end Atom

inductive Container where
  | list
  | tuple
  | set
deriving DecidableEq

namespace Container

def name : Container → String
  | .list => "list"
  | .tuple => "tuple"
  | .set => "set"

def collect : Container → List Value → Value
  | .list, items => .list items
  | .tuple, items => .tuple items
  | .set, items => Value.ofMembers items

end Container

/-- How a canonicalizer fails. The first four are verdicts on the value. -/
inductive CanonFault where
  | invalidValue (text : String)
  | wrongType (text : String)
  | missingAttribute (text : String)
  | missingKey (text : String)
  | other (d : Defect)

structure Canonicalizer where
  run : Callback (Value → Except CanonFault Value)
  /-- After a failure the value counts as being of another type, and unions go on. -/
  fallsThrough : Bool

namespace Canonicalizer

def fail (c : Canonicalizer) (fault text : String) : Outcome Value :=
  let message := fault ++ " during canonicalization: " ++ text
  .invalid (if c.fallsThrough then .mismatch message else .simple message)

def apply (c : Canonicalizer) (v : Value) : Outcome Value :=
  match c.run.run v with
  | .ok w => .ok w
  | .error (.invalidValue text) => c.fail "invalid value" text
  | .error (.wrongType text) => c.fail "wrong type" text
  | .error (.missingAttribute text) => c.fail "missing attribute" text
  | .error (.missingKey text) => c.fail "missing key" text
  | .error (.other d) => .defect d

def applyOption : Option Canonicalizer → Value → Outcome Value
  | none, v => .ok v
  | some c, v => c.apply v

def same : Option Canonicalizer → Option Canonicalizer → Bool
  | none, none => true
  | some c, some d => c.run.same d.run && c.fallsThrough == d.fallsThrough
  | _, _ => false

end Canonicalizer

/-! ## The family of specifications -/

mutual

inductive Base where
  | atom (a : Atom)
  | spec (s : Spec)

structure Spec where
  settings : Settings
  rule : Rule

inductive Rule where
  | scalar (atom : Atom) (canonicalizer : Option Canonicalizer)
  /-- Membership in an ascending list of values. -/
  | enum (members : List Value) (canonicalizer : Option Canonicalizer)
  /-- Any of several types, tried in order. -/
  | union (types : List Base)
  /-- A collection of any length, each element of one of the types. -/
  | iter (types : List Base) (container : Container)
  /-- A sequence with one type for each position. -/
  | seq (positions : List Base) (container : Container)
  | mapping (m : Mapping)

structure Mapping where
  keys : List KeyRule
  /-- Rules for keys that are not declared one by one. -/
  patterns : List PatternRule
  post : List Post
  name : String
  unhandledOk : Bool

structure KeyRule where
  key : Value
  slot : Slot

inductive Slot where
  | type (b : Base)
  | conditional (c : Conditional)

/-- A key whose value selects further rules for the whole mapping. -/
structure Conditional where
  /-- In ascending order of the selecting values. -/
  cases : List Case
  optional : Bool
  default : Value
  /-- Whether the case of the default applies when the key is absent. -/
  applyDefaultSpec : Bool

structure Case where
  value : Value
  settings : Settings
  mapping : Mapping

structure PatternRule where
  pattern : Base
  type : Base

end

/-! ## Names -/

mutual

def Base.typeName : Base → String
  | .atom a => a.name
  | .spec s => s.typeName

def Spec.typeName : Spec → String
  | ⟨_, rule⟩ => rule.typeName

def Rule.typeName : Rule → String
  | .scalar a _ => a.name
  | .enum members _ => "enum=" ++ "/".intercalate (members.map Value.render)
  | .union types => "/".intercalate (typeNames types)
  | .iter _ container => container.name
  | .seq positions _ => "sequence(" ++ ", ".intercalate (typeNames positions) ++ ")"
  | .mapping m => m.name

def typeNames : List Base → List String
  | [] => []
  | b :: rest => b.typeName :: typeNames rest

end

namespace Base

def isNull : Base → Bool
  | .atom .null => true
  | _ => false

end Base

namespace Spec

def isOptional (s : Spec) : Bool := s.settings.optional

def defaultValue (s : Spec) : Value := s.settings.default.produce

def constraints (s : Spec) : List Constraint := s.settings.constraints

end Spec

namespace Conditional

def caseValues (c : Conditional) : List Value := c.cases.map Case.value

end Conditional

end Conformance
