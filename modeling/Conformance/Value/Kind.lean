import Conformance.Value

/-! # Nominal kinds of values -/

namespace Conformance

/-- A concrete kind matches one variant; `any`, `number`, `sequence` and `iterable` match several.
A truth value is no integer. -/
inductive Kind where
  | any
  | null
  | bool
  | int
  | float
  | number
  | str
  | list
  | tuple
  | set
  | sequence
  | iterable
  | map
deriving DecidableEq

namespace Kind

def all : List Kind :=
  [.any, .null, .bool, .int, .float, .number, .str, .list, .tuple, .set, .sequence, .iterable, .map]

def name : Kind → String
  | .any => "any"
  | .null => "null"
  | .bool => "bool"
  | .int => "int"
  | .float => "float"
  | .number => "number"
  | .str => "str"
  | .list => "list"
  | .tuple => "tuple"
  | .set => "set"
  | .sequence => "sequence"
  | .iterable => "iterable"
  | .map => "dict"

def ofName? (s : String) : Option Kind := all.find? (·.name = s)

theorem ofName?_name (k : Kind) : ofName? k.name = some k := by
  cases k <;> decide

def includes : Kind → Value → Bool
  | .any, _ => true
  | .null, .null => true
  | .bool, .bool _ => true
  | .int, .int _ => true
  | .float, .float _ => true
  | .number, .int _ => true
  | .number, .float _ => true
  | .str, .str _ => true
  | .list, .list _ => true
  | .tuple, .tuple _ => true
  | .set, .set _ => true
  | .sequence, .list _ => true
  | .sequence, .tuple _ => true
  | .iterable, .list _ => true
  | .iterable, .tuple _ => true
  | .iterable, .set _ => true
  | .map, .map _ => true
  | _, _ => false

end Kind

def Value.kind : Value → Kind
  | .null => .null
  | .bool _ => .bool
  | .int _ => .int
  | .float _ => .float
  | .str _ => .str
  | .list _ => .list
  | .tuple _ => .tuple
  | .set _ => .set
  | .map _ => .map

theorem Kind.includes_kind (v : Value) : v.kind.includes v = true := by
  cases v <;> rfl

end Conformance
