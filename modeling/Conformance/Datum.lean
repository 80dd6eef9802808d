import Conformance.Json.Reader
import Conformance.Value.Collection

/-! # Self-describing data

What a reader of any format reports about one item, and the value that it stands for. Two kinds of
items stand for no value.
-/

namespace Conformance

inductive Datum where
  | unit
  | none
  | some (d : Datum)
  | wrapped (d : Datum)
  | bool (b : Bool)
  | signed (i : Int64)
  | unsigned (n : UInt64)
  | float (x : Binary64)
  /-- A number that the format keeps with single precision. -/
  | single (x : Binary64)
  | text (s : String)
  | bytes
  | seq (items : List Datum)
  | map (entries : List (Datum × Datum))

inductive DatumFault where
  | bytes
  | wrapped
deriving DecidableEq

def DatumFault.message : DatumFault → String
  | .bytes => "invalid type: byte array, expected any value"
  | .wrapped => "invalid type: newtype struct, expected any value"

namespace Value

mutual

def ofDatum : Datum → Except DatumFault Value
  | .unit => .ok .null
  | .none => .ok .null
  | .some d => ofDatum d
  | .wrapped _ => .error .wrapped
  | .bool b => .ok (.bool b)
  | .signed i => .ok (.int i)
  | .unsigned n => .ok (ofUnsigned n)
  | .float x => .ok (.float x)
  | .single x => .ok (.float x.toSingle)
  | .text s => .ok (.str s)
  | .bytes => .error .bytes
  | .seq items => (ofDatumItems items).map .list
  | .map entries => (ofDatumEntries entries).map ofEntries

def ofDatumItems : List Datum → Except DatumFault (List Value)
  | [] => .ok []
  | d :: rest => do
    let v ← ofDatum d
    let vs ← ofDatumItems rest
    return v :: vs

def ofDatumEntries : List (Datum × Datum) → Except DatumFault (List (Value × Value))
  | [] => .ok []
  | (k, d) :: rest => do
    let key ← ofDatum k
    let v ← ofDatum d
    let entries ← ofDatumEntries rest
    return (key, v) :: entries

end

end Value

namespace Json

def Number.datum : Number → Datum
  | .unsigned n => .unsigned n
  | .negative i => .signed i
  | .float x => .float x

mutual

/-- What a reader of JSON reports, members of objects as they are written. -/
def datum : Json → Datum
  | .null => .unit
  | .bool b => .bool b
  | .number n => n.datum
  | .string s => .text s
  | .array items => .seq (itemData items)
  | .object members => .map (memberData members)

def itemData : List Json → List Datum
  | [] => []
  | j :: rest => datum j :: itemData rest

def memberData : List (String × Json) → List (Datum × Datum)
  | [] => []
  | (name, j) :: rest => (.text name, datum j) :: memberData rest

end

end Json

def Value.readJson? (text : String) : Option (Except DatumFault Value) :=
  (Json.read? text).map fun j => Value.ofDatum j.datum

end Conformance
