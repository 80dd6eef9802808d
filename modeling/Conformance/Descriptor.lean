import Conformance.Spec.Build

/-! # Shorthands for types

Wherever a type is expected, a list of types, a set of values, a table of entries or a union may
stand for the specification that it abbreviates.
-/

namespace Conformance

mutual

inductive Descriptor where
  | atom (a : Atom)
  | spec (s : Spec)
  | list (types : List Descriptor)
  | values (vs : List Value)
  | union (types : List Descriptor)
  | mapping (entries : List SchemaEntry)

inductive SchemaKey where
  | value (v : Value)
  | pattern (d : Descriptor)

structure SchemaEntry where
  key : SchemaKey
  type : Descriptor

end

mutual

/-- The type that a shorthand stands for. Of a table, exact keys are built before patterns. -/
def Descriptor.toBase : Descriptor → Built Base
  | .atom a => .ok (.atom a)
  | .spec s => .ok (.spec s)
  | .list types => do
    let types ← toBases types
    (Spec.iter types .list {}).map .spec
  | .values vs => (Spec.enum vs none {}).map .spec
  | .union types => do
    let types ← toBases types
    (Spec.union types {}).map .spec
  | .mapping entries => do
    let keys ← exactKeys entries
    let patterns ← patternKeys entries
    (Spec.mapping ⟨keys, patterns, [], "dict", false⟩ false {}).map .spec

def toBases : List Descriptor → Built (List Base)
  | [] => .ok []
  | d :: rest => do
    let b ← d.toBase
    let bs ← toBases rest
    return b :: bs

def exactKeys : List SchemaEntry → Built (List KeyRule)
  | [] => .ok []
  | ⟨.value v, type⟩ :: rest => do
    let b ← type.toBase
    let rules ← exactKeys rest
    return ⟨v, .type b⟩ :: rules
  | ⟨.pattern _, _⟩ :: rest => exactKeys rest

def patternKeys : List SchemaEntry → Built (List PatternRule)
  | [] => .ok []
  | ⟨.value _, _⟩ :: rest => patternKeys rest
  | ⟨.pattern p, type⟩ :: rest => do
    let pattern ← p.toBase
    let b ← type.toBase
    let rules ← patternKeys rest
    return ⟨pattern, b⟩ :: rules

end

/-- An atom, which is all that a scalar specification can wrap. -/
def Descriptor.toAtom : Descriptor → Built Atom
  | .atom a => .ok a
  | _ => .error (.invalidBaseType "Type only wraps a kind, a boolean literal or null")

end Conformance
