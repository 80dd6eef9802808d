import Conformance.Value
import Conformance.Decimal.Layout
import Conformance.Text.Quoted

/-! # Values in messages -/

namespace Conformance.Value

mutual

/-- A value in its literal form; a tuple of one item keeps a comma. -/
def chars : Value → List Char
  | .null => "null".toList
  | .bool b => (if b then "true" else "false").toList
  | .int i => (toString i.toInt).toList
  | .float x => Decimal.render .message x
  | .str s => Text.quote s
  | .list items => '[' :: itemChars items ++ [']']
  | .tuple items => '(' :: itemChars items ++ (if items.length = 1 then [','] else []) ++ [')']
  | .set members => '\x7b' :: itemChars members ++ ['\x7d']
  | .map entries => '\x7b' :: entryChars entries ++ ['\x7d']

def itemChars : List Value → List Char
  | [] => []
  | v :: rest => chars v ++ moreItemChars rest

def moreItemChars : List Value → List Char
  | [] => []
  | v :: rest => ',' :: ' ' :: chars v ++ moreItemChars rest

def entryChars : List (Value × Value) → List Char
  | [] => []
  | (k, v) :: rest => chars k ++ ':' :: ' ' :: chars v ++ moreEntryChars rest

def moreEntryChars : List (Value × Value) → List Char
  | [] => []
  | (k, v) :: rest => ',' :: ' ' :: chars k ++ ':' :: ' ' :: chars v ++ moreEntryChars rest

end

def render (v : Value) : String := String.ofList v.chars

def renderAll (vs : List Value) : String := ", ".intercalate (vs.map render)

end Conformance.Value
