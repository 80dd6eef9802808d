import Conformance.SchemaError
import Conformance.Spec.Check

/-! # Building specifications

Every specification passes through `Spec.assemble`, which brings rule and settings into agreement
and refuses an optional specification whose default does not conform.
-/

namespace Conformance

open Value (Entries)

/-- An optional enumeration or union includes null, and one that includes null is optional. -/
def Rule.normalize : Rule → Settings → Rule × Settings
  | .enum members c, s =>
    let members := if s.optional then Value.insertMember .null members else members
    (.enum members c, { s with optional := members.contains .null })
  | .union types, s =>
    let types := if s.optional && !types.any Base.isNull then types ++ [.atom .null] else types
    (.union types, { s with optional := types.any Base.isNull })
  | r, s => (r, s)

/-- What a type gives for a value that is not provided, if it is an optional specification. -/
def Base.checkedDefault? : Base → Option (Built Value)
  | .atom _ => none
  | .spec s => if s.isOptional then some (s.check s.defaultValue).asDefault else none

/-- The checked defaults of all types, if all of them have one. -/
def Base.composeDefaults : List Base → Built (Option (List Value))
  | [] => .ok (some [])
  | b :: rest =>
    match b.checkedDefault? with
    | none => .ok none
    | some (.error e) => .error e
    | some (.ok v) => (composeDefaults rest).map fun vs => vs.map (v :: ·)

def Slot.checkedDefault? : Slot → Option (Built Value)
  | .type b => b.checkedDefault?
  | .conditional _ => none

def KeyRule.composeDefaults : List KeyRule → Built (Option (List (Value × Value)))
  | [] => .ok (some [])
  | r :: rest =>
    match r.slot.checkedDefault? with
    | none => .ok none
    | some (.error e) => .error e
    | some (.ok v) => (composeDefaults rest).map fun vs => vs.map ((r.key, v) :: ·)

/-- Choosing a default oneself and having it composed exclude each other. -/
def Options.allowAuto (o : Options) : Built Unit :=
  if o.optional = some true || o.default.isSome then
    .error (.conflict "auto_optional cannot be combined with optional or default")
  else .ok ()

namespace Spec

def assemble (rule : Rule) (settings : Settings) : Built Spec :=
  let (rule, settings) := rule.normalize settings
  let spec : Spec := ⟨settings, rule⟩
  if settings.optional then (spec.checkGiven spec.defaultValue).asDefault.map fun _ => spec
  else .ok spec

def scalar (atom : Atom) (canonicalizer : Option Canonicalizer) (o : Options) : Built Spec :=
  assemble (.scalar atom canonicalizer) (o.resolve (.value .null) .empty)

def enum (values : List Value) (canonicalizer : Option Canonicalizer) (o : Options) : Built Spec :=
  assemble (.enum (Value.members values) canonicalizer) (o.resolve (.value .null) .falsy)

def union (types : List Base) (o : Options) : Built Spec :=
  assemble (.union types) (o.resolve (.value .null) .empty)

def iter (types : List Base) (container : Container) (o : Options) : Built Spec :=
  assemble (.iter types container) (o.resolve (.value (.list [])) .falsy)

/-- With `autoOptional` the sequence is optional if every position is, and its default is made of
theirs. -/
def seq (positions : List Base) (container : Container) (autoOptional : Bool) (o : Options) :
    Built Spec := do
  let close (o : Options) : Built Spec :=
    assemble (.seq positions container) (o.resolve (.value (.list [])) .falsy)
  if !autoOptional then close o
  else
    o.allowAuto
    if positions.isEmpty then
      .error (.conflict "auto_optional needs at least one position")
    else
      match ← Base.composeDefaults positions with
      | some vs => close (o.withDefault (container.collect vs))
      | none => close o

/-- With `autoOptional` the mapping is optional if every declared key is, and its default is made
of theirs; without declared keys it is optional and by default empty. -/
def mapping (m : Mapping) (autoOptional : Bool) (o : Options) : Built Spec := do
  let close (o : Options) : Built Spec :=
    assemble (.mapping m) (o.resolve (.value (.map [])) .falsy)
  if m.keys.isEmpty && m.patterns.isEmpty then .error .emptySchema
  else if !autoOptional then close o
  else
    o.allowAuto
    if m.keys.isEmpty then close { o with optional := some true }
    else
      match ← KeyRule.composeDefaults m.keys with
      | some entries => close (o.withDefault (Value.ofEntries entries))
      | none => close o

/-! ## Deriving one specification from another -/

def derive (s : Spec) (configure : Options → Options) : Built Spec :=
  assemble s.rule
    ((configure (.ofSettings s.settings)).resolve s.settings.default s.settings.unset)

def addConstraints (s : Spec) (cs : List Constraint) : Built Spec :=
  s.derive fun o => { o with constraints := o.constraints ++ cs }

end Spec

namespace Case

/-- A case is a mapping specification without patterns. -/
def ofBase (value : Value) : Base → Built Case
  | .spec ⟨settings, .mapping m⟩ =>
    if m.patterns.isEmpty then .ok ⟨value, settings, m⟩
    else
      .error (.conditional
        ("type keys are not allowed in the sub-schema for case " ++ value.render))
  | _ => .error (.conditional ("case " ++ value.render ++ " must be a mapping spec"))

/-- Keeps cases in the order of their values; a new case replaces the one of the same value. -/
def insert (c : Case) : List Case → List Case
  | [] => [c]
  | d :: rest =>
    match Value.compare c.value d.value with
    | .lt => c :: d :: rest
    | .eq => c :: rest
    | .gt => d :: insert c rest

end Case

/-- The case of the default has to exist if it is to apply. -/
def Conditional.ofCases (cases : List Case) (optional : Bool) (default : Value)
    (applyDefaultSpec : Bool) : Built Conditional :=
  let cases := cases.foldl (fun acc c => c.insert acc) []
  if applyDefaultSpec && !(cases.map Case.value).contains default then
    .error (.conditional ("default=" ++ default.render
      ++ " is not one of the cases and apply_default_spec is set"))
  else .ok ⟨cases, optional, default, applyDefaultSpec⟩

namespace Post

def ofKeys (action : PostAction) : List Value → Built Post
  | [] => .error .emptyRefKeys
  | k :: rest => .ok ⟨k, rest, action⟩

def update (keys : List Value) (compute : Callback (List Value → Value))
    (gate : Option (Callback (List Value → Bool))) : Built Post :=
  ofKeys (.update compute gate) keys

def test (keys : List Value) (holds : Callback (List Value → Bool)) (message : String) :
    Built Post :=
  ofKeys (.test holds message) keys

end Post

end Conformance
