import Conformance.Json.Writer
import Conformance.Value.Collection
import Conformance.Value.Render

/-! # Values and JSON

A value goes to JSON as a tree or straight to text. Tuples and sets become arrays, so they do not
come back as what they were.
-/

namespace Conformance

inductive ConvertError where
  | nonStringKey (k : Value)
  | nonFiniteFloat (x : Binary64)

def ConvertError.message : ConvertError → String
  | .nonStringKey k => "JSON object keys must be strings, found " ++ k.render
  | .nonFiniteFloat x =>
    "JSON numbers must be finite, found " ++ String.ofList (Decimal.render .message x)

namespace Value

/-! ## From a tree -/

/-- What is no integer of 64 bits becomes a floating-point number. -/
def ofJsonNumber (n : Json.Number) : Value :=
  match n.toInteger? with
  | some i => .int i
  | none => .float n.toFloat

mutual

def ofJson : Json → Value
  | .null => .null
  | .bool b => .bool b
  | .number n => ofJsonNumber n
  | .string s => .str s
  | .array items => .list (ofJsonItems items)
  | .object members => ofEntries (ofJsonMembers members)

def ofJsonItems : List Json → List Value
  | [] => []
  | j :: rest => ofJson j :: ofJsonItems rest

def ofJsonMembers : List (String × Json) → List (Value × Value)
  | [] => []
  | (name, j) :: rest => (.str name, ofJson j) :: ofJsonMembers rest

end

/-! ## To a tree -/

def jsonInteger (i : Int64) : Json.Number :=
  if i < 0 then .negative i else .unsigned (UInt64.ofNat i.toInt.toNat)

mutual

/-- The first part that has no place in a tree decides. Members of an object are put in the order of
their names. -/
def toJson : Value → Except ConvertError Json
  | .null => .ok .null
  | .bool b => .ok (.bool b)
  | .int i => .ok (.number (jsonInteger i))
  | .float x => if x.isFinite then .ok (.number (.float x)) else .error (.nonFiniteFloat x)
  | .str s => .ok (.string s)
  | .list items => (toJsonItems items).map .array
  | .tuple items => (toJsonItems items).map .array
  | .set members => (toJsonItems members).map .array
  | .map entries => (toJsonMembers entries).map fun members => .object (Json.sortMembers members)

def toJsonItems : List Value → Except ConvertError (List Json)
  | [] => .ok []
  | v :: rest => do
    let j ← toJson v
    let js ← toJsonItems rest
    return j :: js

def toJsonMembers : List (Value × Value) → Except ConvertError (List (String × Json))
  | [] => .ok []
  | (.str name, v) :: rest => do
    let j ← toJson v
    let js ← toJsonMembers rest
    return (name, j) :: js
  | (k, _) :: _ => .error (.nonStringKey k)

end

/-! ## To text -/

/-- A key as a name: texts, and also truth values and finite numbers, in quotes. -/
def keyText? : Value → Option (List Char)
  | .str s => some (Json.quote s)
  | .bool b => some ('"' :: Json.boolChars b ++ ['"'])
  | .int i => some ('"' :: Json.intChars i ++ ['"'])
  | .float x => if x.isFinite then some ('"' :: Json.floatChars x ++ ['"']) else none
  | _ => none

mutual

def jsonChars? : Value → Option (List Char)
  | .null => some "null".toList
  | .bool b => some (Json.boolChars b)
  | .int i => some (Json.intChars i)
  | .float x => some (Json.floatChars x)
  | .str s => some (Json.quote s)
  | .list items => (jsonItemChars? items).map fun cs => '[' :: cs ++ [']']
  | .tuple items => (jsonItemChars? items).map fun cs => '[' :: cs ++ [']']
  | .set members => (jsonItemChars? members).map fun cs => '[' :: cs ++ [']']
  | .map entries => (jsonEntryChars? entries).map fun cs => '\x7b' :: cs ++ ['\x7d']

def jsonItemChars? : List Value → Option (List Char)
  | [] => some []
  | v :: rest => do return (← jsonChars? v) ++ (← moreJsonItemChars? rest)

def moreJsonItemChars? : List Value → Option (List Char)
  | [] => some []
  | v :: rest => do return ',' :: (← jsonChars? v) ++ (← moreJsonItemChars? rest)

def jsonEntryChars? : List (Value × Value) → Option (List Char)
  | [] => some []
  | (k, v) :: rest => do
    return (← keyText? k) ++ ':' :: (← jsonChars? v) ++ (← moreJsonEntryChars? rest)

def moreJsonEntryChars? : List (Value × Value) → Option (List Char)
  | [] => some []
  | (k, v) :: rest => do
    return ',' :: (← keyText? k) ++ ':' :: (← jsonChars? v) ++ (← moreJsonEntryChars? rest)

end

/-- The value as JSON text; what is not finite is written as null. -/
def jsonText? (v : Value) : Option String := v.jsonChars?.map String.ofList

end Value

end Conformance
