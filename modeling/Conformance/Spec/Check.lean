import Conformance.Spec

/-! # Checking values

A check gives back the canonical form of a conforming value, with defaults filled in. It collects
all failures, but a defect of a user function ends it at once.
-/

namespace Conformance

open Value (Entries)

def mustBe : List String → String
  | [single] => "Must be " ++ single
  | names => "Must be one of: " ++ ", ".intercalate names

def Atom.check (a : Atom) (v : Value) : Outcome Value :=
  if a.includes v then .ok v else .invalid (.mismatch (mustBe [a.name]))

/-! ## Elements -/

abbrev Gathered := Except Defect (List Value × List Failure)

/-- Adds the outcome at one place to those of the places behind it, unless it is a defect. -/
def gatherOne (place : Nat) (context : String) (o : Outcome Value) (rest : Gathered) : Gathered :=
  match o, rest with
  | .defect d, _ => .error d
  | _, .error d => .error d
  | .ok v, .ok (checked, failures) => .ok (v :: checked, failures)
  | .invalid e, .ok (checked, failures) =>
    .ok (checked, .caused (some (.index place)) context e :: failures)

def gather (check : Value → Outcome Value) (place : Nat) : List Value → Gathered
  | [] => .ok ([], [])
  | v :: rest =>
    gatherOne place ("Index " ++ toString place ++ " is invalid") (check v)
      (gather check (place + 1) rest)

def Gathered.close (summary : String) (container : Container) : Gathered → Outcome Value
  | .error d => .defect d
  | .ok (checked, []) => .ok (container.collect checked)
  | .ok (_, f :: rest) => .invalid (.aggregate summary f rest)

/-! ## Mappings -/

/-- How far the check of one mapping has come. Rules of a selected case work on the same state as
the rules that select it. -/
structure Progress where
  output : Entries
  /-- Keys that no rule has claimed yet. -/
  unhandled : List Value

namespace Progress

def start (m : Entries) : Progress := ⟨[], Entries.keys m⟩

def claim (p : Progress) (key : Value) : Progress :=
  { p with unhandled := p.unhandled.filter (· ≠ key) }

def put (p : Progress) (key v : Value) : Progress :=
  { p with output := Entries.insert key v p.output }

end Progress

/-- Progress of one rule table with the failures of its keys so far. -/
structure Pass where
  progress : Progress
  failures : List Failure

namespace Pass

def fail (p : Pass) (f : Failure) : Pass := { p with failures := p.failures ++ [f] }

def record (failures : List Failure) (key : Value) (context : String) :
    Except Invalid Value × Progress → Pass
  | (.ok v, progress) => ⟨progress.put key v, failures⟩
  | (.error e, progress) => ⟨progress, failures ++ [.caused (some (.key key)) context e]⟩

end Pass

abbrev Verdict := Except Defect (Except Invalid Value × Progress)

def Outcome.settle (p : Progress) : Outcome Value → Verdict
  | .ok v => .ok (.ok v, p)
  | .invalid e => .ok (.error e, p)
  | .defect d => .error d

/-- Offers each key to the patterns; the one that takes it gives the new key and value. -/
def claimKeys (take : Value → Value → Outcome (Option (Value × Value))) (m : Entries) :
    List Value → Pass → Except Defect Pass
  | [], p => .ok p
  | key :: rest, p =>
    match Entries.get? key m with
    | none => claimKeys take m rest p
    | some v =>
      match take key v with
      | .ok none => claimKeys take m rest p
      | .ok (some (key', v')) =>
        claimKeys take m rest { p with progress := (p.progress.claim key).put key' v' }
      | .invalid e =>
        claimKeys take m rest
          (Pass.fail { p with progress := p.progress.claim key }
            (.caused (some (.key key))
              ("Value for key " ++ key.render ++ " does not conform with spec") e))
      | .defect d => .error d

def PatternRule.name (r : PatternRule) : String := r.pattern.typeName

/-- The failure that names every key left over, together with all keys and patterns declared. -/
def unhandledFailure (unhandled : List Value) (keys : List KeyRule) (patterns : List PatternRule) :
    Failure :=
  let valid := keys.map (fun r => r.key.render) ++ patterns.map PatternRule.name
  .leaf none ("Keys " ++ Value.renderAll unhandled ++ " are unhandled; valid keys: "
    ++ ", ".intercalate valid)

/-- How the rules of a mapping end: with an error or without, or with a defect. -/
abbrev Run := Except Defect (Option Invalid × Progress)

def Run.close : Run → Outcome Value
  | .error d => .defect d
  | .ok (some e, _) => .invalid e
  | .ok (none, progress) => .ok (.map progress.output)

/-- The end of the run of a case, as a verdict on the value that selects the case. -/
def Run.asCase (v : Value) : Run → Verdict
  | .error d => .error d
  | .ok (none, progress) => .ok (.ok v, progress)
  | .ok (some e, progress) =>
    let context := "Does not conform with conditional spec for value " ++ v.render
    .ok (.error (.wrapped context e), progress)

/-- The default of an optional conditional, after its own case if that has been applied. An optional
key that is present may hold it too, as that is what an absent key is given. -/
def defaultVerdict (ownCase : Option Run) (default : Value) (progress : Progress) : Verdict :=
  match ownCase with
  | none => .ok (.ok default, progress)
  | some (.error d) => .error d
  | some (.ok (none, after)) => .ok (.ok default, after)
  | some (.ok (some e, after)) => .ok (.error e, after)

/-- The end of a pass: failures under one summary, or the post rules when there are none. -/
def Pass.finish (p : Pass) (post : List Post) : Option Invalid × Progress :=
  match p.failures with
  | f :: rest => (some (.aggregate "Does not conform with dict schema" f rest), p.progress)
  | [] =>
    let (failures, output) := Post.applyAll post p.progress.output
    let error := match failures with
      | [] => none
      | f :: rest => some (.aggregate "Post processing has failed" f rest)
    (error, { p.progress with output })

def Pass.sealed (p : Pass) (unhandledOk : Bool) (keys : List KeyRule)
    (patterns : List PatternRule) : Pass :=
  if !unhandledOk && !p.progress.unhandled.isEmpty then
    p.fail (unhandledFailure p.progress.unhandled keys patterns)
  else p

/-! ## The check -/

def Rule.canonicalize : Rule → Value → Outcome Value
  | .scalar _ c, v => Canonicalizer.applyOption c v
  | .enum _ c, v => Canonicalizer.applyOption c v
  | _, v => .ok v

def answer (types : List Base) : Option (Outcome Value) → Outcome Value
  | some o => o
  | none => .invalid (.mismatch (mustBe (typeNames types)))

mutual

def Base.check : Base → Value → Outcome Value
  | .atom a, v => a.check v
  | .spec s, v => s.check v

/-- An unset value gives way to the default; constraints come between structure and canonical
form. -/
def Spec.check : Spec → Value → Outcome Value
  | ⟨settings, rule⟩, v =>
    ((rule.check (settings.given v)).bind settings.enforce).bind rule.canonicalize

def Rule.check : Rule → Value → Outcome Value
  | .scalar a _, v => a.check v
  | .enum members c, v =>
    if v ∈ members then .ok v
    else .invalid (.mismatch ("Must match " ++ (Rule.enum members c).typeName))
  | .union types, v => answer types (firstMatch types v)
  | .iter types container, v =>
    match v.elements? with
    | none => .invalid (.mismatch "Must be iterable")
    | some items =>
      (gather (fun item => answer types (firstMatch types item)) 0 items).close
        "Items do not conform with iterable spec" container
  | .seq positions container, v =>
    match v.sequence? with
    | none => .invalid (.mismatch "Must be a sequence")
    | some items =>
      if items.length = positions.length then
        (checkPositions 0 positions items).close "Sequence does not conform with spec" container
      else
        .invalid (.simple
          ("Sequence must have exactly " ++ toString positions.length ++ " elements"))
  | .mapping m, v =>
    match v.entries? with
    | none => .invalid (.mismatch "Must be a mapping")
    | some entries => (m.run m.unhandledOk entries (.start entries)).close

/-- The first type that does not answer with a mismatch decides. -/
def firstMatch : List Base → Value → Option (Outcome Value)
  | [], _ => none
  | b :: rest, v =>
    match b.check v with
    | .invalid e => if e.isMismatch then firstMatch rest v else some (.invalid e)
    | o => some o

def checkPositions (place : Nat) : List Base → List Value → Gathered
  | b :: bases, v :: rest =>
    gatherOne place ("Sequence index " ++ toString place ++ " is invalid") (b.check v)
      (checkPositions (place + 1) bases rest)
  | _, _ => .ok ([], [])

/-- Declared keys in their order, then the keys left over in the order of values, then post
rules. -/
def Mapping.run : Mapping → Bool → Entries → Progress → Run
  | ⟨keys, patterns, post, _, _⟩, unhandledOk, m, progress => do
    let afterKeys ← runKeys keys m ⟨progress, []⟩
    let afterPatterns ← claimKeys (fun key v => takeKey patterns key v) m
      afterKeys.progress.unhandled afterKeys
    return (afterPatterns.sealed unhandledOk keys patterns).finish post

def runKeys : List KeyRule → Entries → Pass → Except Defect Pass
  | [], _, p => .ok p
  | ⟨key, slot⟩ :: rest, m, p =>
    match Entries.get? key m with
    | some v =>
      match slot.take m (p.progress.claim key) v with
      | .error d => .error d
      | .ok verdict =>
        runKeys rest m
          (.record p.failures key ("Invalid value for key " ++ key.render) verdict)
    | none =>
      match slot.fill? m p.progress with
      | none =>
        runKeys rest m
          (p.fail (.leaf (some (.key key)) ("Missing required mapping key " ++ key.render)))
      | some (.error d) => .error d
      | some (.ok verdict) =>
        runKeys rest m
          (.record p.failures key ("Invalid default for key " ++ key.render) verdict)

def Slot.take (m : Entries) (progress : Progress) : Slot → Value → Verdict
  | .type b, v => (b.check v).settle progress
  | .conditional c, v => c.take m progress v

def Slot.fill? (m : Entries) (progress : Progress) : Slot → Option Verdict
  | .type (.atom _) => none
  | .type (.spec s) =>
    if s.isOptional then some ((s.check s.defaultValue).settle progress) else none
  | .conditional c => c.fill? m progress

def Conditional.take (m : Entries) (progress : Progress) : Conditional → Value → Verdict
  | ⟨cases, optional, default, applyDefaultSpec⟩, v =>
    match runCase cases v m progress with
    | some run => run.asCase v
    | none =>
      if optional && v == default then
        defaultVerdict (if applyDefaultSpec then runCase cases default m progress else none)
          default progress
      else .ok (.error (.simple (mustBe (cases.map fun c => c.value.render))), progress)

def Conditional.fill? (m : Entries) (progress : Progress) : Conditional → Option Verdict
  | ⟨cases, optional, default, applyDefaultSpec⟩ =>
    if optional then
      some (defaultVerdict (if applyDefaultSpec then runCase cases default m progress else none)
        default progress)
    else none

/-- The rules of the case that `v` selects, with keys left over allowed. -/
def runCase : List Case → Value → Entries → Progress → Option Run
  | [], _, _, _ => none
  | ⟨value, _, mapping⟩ :: rest, v, m, progress =>
    if v = value then some (mapping.run true m progress) else runCase rest v m progress

/-- The first pattern that a key meets decides about its value. -/
def takeKey : List PatternRule → Value → Value → Outcome (Option (Value × Value))
  | [], _, _ => .ok none
  | ⟨pattern, type⟩ :: rest, key, v =>
    match pattern.check key with
    | .ok key' => (type.check v).map fun v' => some (key', v')
    | .invalid _ => takeKey rest key v
    | .defect d => .defect d

end

def Base.checkAny (types : List Base) (v : Value) : Outcome Value :=
  answer types (firstMatch types v)

/-- A value that is taken as given, never for the default. -/
def Spec.checkGiven (s : Spec) (v : Value) : Outcome Value :=
  ((s.rule.check v).bind s.settings.enforce).bind s.rule.canonicalize

theorem Spec.check_eq_checkGiven (s : Spec) (v : Value) :
    s.check v = s.checkGiven (s.settings.given v) := by
  cases s
  rfl

/-- What a value breaks of the constraints; one that stands for the default is not asked. -/
def Spec.violation? (s : Spec) (v : Value) : Option Invalid :=
  if s.settings.replaces v then none else Constraint.violation? s.constraints v

end Conformance
