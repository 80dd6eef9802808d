import Conformance.Descriptor

/-! # Declaring specifications

The builders as they are used, with shorthands in the place of types.
-/

namespace Conformance.Schema

/-- A kind, a literal or null. A failing canonicalizer is a verdict on a value of this type. -/
def type (base : Descriptor) (canonicalizer : Option (Callback (Value → Except CanonFault Value)))
    (o : Options) : Built Spec := do
  let atom ← base.toAtom
  Spec.scalar atom (canonicalizer.map (⟨·, false⟩)) o

/-- Like `type`, but a failing canonicalizer means that the value is of another type. -/
def refined (base : Descriptor)
    (canonicalizer : Option (Callback (Value → Except CanonFault Value))) (o : Options) :
    Built Spec := do
  let atom ← base.toAtom
  Spec.scalar atom (canonicalizer.map (⟨·, true⟩)) o

def enum (values : List Value)
    (canonicalizer : Option (Callback (Value → Except CanonFault Value))) (o : Options) :
    Built Spec :=
  Spec.enum values (canonicalizer.map (⟨·, false⟩)) o

def union (types : List Descriptor) (o : Options) : Built Spec := do
  let types ← toBases types
  Spec.union types o

def iter (types : List Descriptor) (container : Container) (o : Options) : Built Spec := do
  let types ← toBases types
  Spec.iter types container o

def seq (positions : List Descriptor) (container : Container) (autoOptional : Bool)
    (o : Options) : Built Spec := do
  let positions ← toBases positions
  Spec.seq positions container autoOptional o

inductive KeySlot where
  | type (d : Descriptor)
  | conditional (c : Conditional)

structure MappingDecl where
  keys : List (Value × KeySlot) := []
  patterns : List (Descriptor × Descriptor) := []
  post : List Post := []
  name : String := "dict"
  unhandledOk : Bool := false
  autoOptional : Bool := false
  options : Options := {}

def MappingDecl.entry (d : MappingDecl) (e : SchemaEntry) : MappingDecl :=
  match e.key with
  | .value v => { d with keys := d.keys ++ [(v, .type e.type)] }
  | .pattern p => { d with patterns := d.patterns ++ [(p, e.type)] }

def KeySlot.build : KeySlot → Built Slot
  | .type d => d.toBase.map .type
  | .conditional c => .ok (.conditional c)

def MappingDecl.build (d : MappingDecl) : Built Spec := do
  let keys ← d.keys.mapM fun e => e.2.build.map (KeyRule.mk e.1)
  let patterns ← d.patterns.mapM fun e => do
    let pattern ← e.1.toBase
    let type ← e.2.toBase
    return PatternRule.mk pattern type
  Spec.mapping ⟨keys, patterns, d.post, d.name, d.unhandledOk⟩ d.autoOptional d.options

/-- Cases are built and judged one after the other. Without a default of its own an absent key
is given null. -/
def conditional (cases : List (Value × Descriptor)) (optional : Bool) (default : Option Value)
    (applyDefaultSpec : Bool) : Built Conditional := do
  let cases ← cases.mapM fun e => do
    let b ← e.2.toBase
    Case.ofBase e.1 b
  Conditional.ofCases cases optional (default.getD .null) applyDefaultSpec

end Conformance.Schema
