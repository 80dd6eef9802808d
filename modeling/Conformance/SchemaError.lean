import Conformance.Outcome

/-! # Why a specification cannot be built -/

namespace Conformance

inductive SchemaError where
  | invalidDefault (cause : Invalid)
  | invalidBaseType (reason : String)
  | conflict (reason : String)
  | emptySchema
  | conditional (reason : String)
  | emptyRefKeys
  | pattern (reason : String)
  | callback (d : Defect)

def SchemaError.message : SchemaError → String
  | .invalidDefault cause => "Invalid schema, default value is spec-invalid: " ++ cause.render
  | .invalidBaseType reason => "Invalid base type: " ++ reason
  | .conflict reason => "Conflicting options: " ++ reason
  | .emptySchema => "One of value keys or type keys must be specified"
  | .conditional reason => "Invalid conditional spec: " ++ reason
  | .emptyRefKeys => "At least one reference key must be given"
  | .pattern reason => "Invalid constraint pattern: " ++ reason
  | .callback d => "Callback failed while validating the default: " ++ d.text

abbrev Built := Except SchemaError

/-- A checked default, whose failure is an error of the specification. -/
def Outcome.asDefault : Outcome Value → Built Value
  | .ok v => .ok v
  | .invalid e => .error (.invalidDefault e)
  | .defect d => .error (.callback d)

end Conformance
