import Conformance.Address.V6
import Conformance.Constraint.Factory
import Conformance.Schema
import Conformance.Text.Lower

/-! # Ready-made specifications

Each is built anew from a label, which tells its user functions from those of other copies.
-/

namespace Conformance.Catalog

abbrev Canon := Value → Except CanonFault Value

/-! ## Canonicalizers -/

/-- Works on texts; what is not a text is of the wrong type. -/
def onText (wrong : Value → String) (f : String → Except CanonFault Value) : Canon := fun v =>
  match v.toText? with
  | some s => f s
  | none => .error (.wrongType (wrong v))

def trimmed (s : String) : List Char := Text.trim s.toList

def parseInteger (cs : List Char) : Except CanonFault Value :=
  match Decimal.readInteger cs with
  | .ok i => .ok (.int i)
  | .error fault => .error (.invalidValue fault.message)

def parseNumber (cs : List Char) : Except CanonFault Value :=
  match Decimal.readNumber cs with
  | .ok x => .ok (.float x)
  | .error fault => .error (.invalidValue fault.message)

def parseBool (s : String) : Except CanonFault Value :=
  if s = "true" then .ok (.bool true)
  else if s = "false" then .ok (.bool false)
  else .error (.invalidValue "provided string was not `true` or `false`")

def parseV4 (s : String) : Except CanonFault Value :=
  match Address.V4.read? s.toList with
  | some x => .ok (.str (String.ofList x.chars))
  | none => .error (.invalidValue "invalid IPv4 address syntax")

def parseV6 (s : String) : Except CanonFault Value :=
  match Address.V6.read? s.toList with
  | some x => .ok (.str (String.ofList x.chars))
  | none => .error (.invalidValue "invalid IPv6 address syntax")

def lowered (s : String) : Except CanonFault Value :=
  .ok (.str (String.ofList (Text.lower s.toList)))

def wrap : Canon := fun v => .ok (.list [v])

def expectedText (v : Value) : String := "expected a string, got " ++ v.render

/-! ## Scalars -/

def kind (k : Kind) : Descriptor := .atom (.kind k)

def optional (k : Kind) : Built Spec := Schema.union [kind k, .atom .null] {}

def optionalBool : Built Spec := optional .bool

def optionalStr : Built Spec := optional .str

def optionalInt : Built Spec := optional .int

def optionalFloat : Built Spec := optional .float

def userInteger (l : Label) : Built Spec := do
  let parsed ← Schema.refined (kind .str)
    (some ⟨l, onText expectedText fun s => parseInteger (trimmed s)⟩) {}
  Schema.union [kind .int, .spec parsed] {}

def userFloat (l : Label) : Built Spec := do
  let parsed ← Schema.refined (kind .str)
    (some ⟨l, onText expectedText fun s => parseNumber (trimmed s)⟩) {}
  Schema.union [kind .float, .spec parsed] {}

def number (l : Label) : Built Spec := do
  let integer ← userInteger (l.part 0)
  let float ← userFloat (l.part 1)
  Schema.union [.spec integer, .spec float] {}

def loweredStr (l : Label) : Built Spec :=
  Schema.type (kind .str) (some ⟨l, onText expectedText lowered⟩) {}

/-! ## Collections -/

def strList : Built Spec := Schema.iter [kind .str] .list {}

def strSet : Built Spec := Schema.iter [kind .str] .set {}

def loweredStrList (l : Label) : Built Spec := do
  let text ← loweredStr l
  Schema.iter [.spec text] .list {}

def loweredStrSet (l : Label) : Built Spec := do
  let text ← loweredStr l
  Schema.iter [.spec text] .set {}

/-- A collection of values of a kind, or one such value in the place of a list. -/
def listOrSingle (l : Label) (k : Kind) : Built Spec := do
  let single ← Schema.type (kind k) (some ⟨l, wrap⟩) {}
  let many ← Schema.iter [kind k] .list {}
  Schema.union [.spec many, .spec single] {}

def strListOrSingle (l : Label) : Built Spec := listOrSingle l .str

/-! ## Addresses and names -/

def ipv4Address (l : Label) : Built Spec :=
  Schema.type (kind .str) (some ⟨l, onText expectedText parseV4⟩) {}

def ipv6Address (l : Label) : Built Spec :=
  Schema.type (kind .str) (some ⟨l, onText expectedText parseV6⟩) {}

def portRange (l : Label) : Constraint :=
  ⟨⟨l, fun v => v.toInt?.any fun i => 1 ≤ i && i ≤ 65535⟩, "Must be in port number range 1-65535"⟩

def portNumber (l : Label) : Built Spec := do
  let integer ← userInteger (l.part 0)
  integer.addConstraints [portRange (l.part 1)]

def wordOnly (l : Label) : Built Constraint :=
  Constraint.matching l "^\\w*$" "Must contain only word characters"

def wordStr (l : Label) : Built Spec := do
  let word ← wordOnly l
  Schema.type (kind .str) none { constraints := [word] }

def wordStrMinLength3 (l : Label) : Built Spec := do
  let word ← wordStr (l.part 0)
  word.addConstraints [Constraint.minLength (l.part 1) 3]

/-! ## By name -/

/-- The specifications that need nothing but a label, by their public names. -/
def byName? (l : Label) : String → Option (Built Spec)
  | "optional_bool" => some optionalBool
  | "optional_str" => some optionalStr
  | "optional_int" => some optionalInt
  | "optional_float" => some optionalFloat
  | "user_integer" => some (userInteger l)
  | "user_float" => some (userFloat l)
  | "number" => some (number l)
  | "lowercased_str" => some (loweredStr l)
  | "str_list" => some strList
  | "str_set" => some strSet
  | "lowercased_str_list" => some (loweredStrList l)
  | "lowercased_str_set" => some (loweredStrSet l)
  | "str_list_or_single" => some (strListOrSingle l)
  | "ipv4_address" => some (ipv4Address l)
  | "ipv6_address" => some (ipv6Address l)
  | "port_number" => some (portNumber l)
  | "word_str" => some (wordStr l)
  | "word_str_minlength_3" => some (wordStrMinLength3 l)
  | _ => none

end Conformance.Catalog
