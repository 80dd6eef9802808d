import Conformance.Decimal.Layout
import Conformance.Json

/-! # Writing JSON text, without blanks -/

namespace Conformance.Json

def controlEscapes : List (Char × Char) :=
  [('\x08', 'b'), ('\t', 't'), ('\n', 'n'), ('\x0c', 'f'), ('\r', 'r')]

def lowHex (n : Nat) : Char := Nat.digitChar (n % 16)

/-- Quotes, backslashes and controls are escaped, and nothing else. -/
def escapeChar (c : Char) : List Char :=
  if c = '"' then ['\\', '"']
  else if c = '\\' then ['\\', '\\']
  else
    match controlEscapes.lookup c with
    | some d => ['\\', d]
    | none =>
      if c.toNat < 0x20 then ['\\', 'u', '0', '0', lowHex (c.toNat / 16), lowHex c.toNat] else [c]

def quote (s : String) : List Char := '"' :: s.toList.flatMap escapeChar ++ ['"']

def boolChars (b : Bool) : List Char := (if b then "true" else "false").toList

def intChars (i : Int64) : List Char := (toString i.toInt).toList

/-- JSON has no numbers that are not finite. -/
def floatChars (x : Binary64) : List Char :=
  if x.isFinite then Decimal.renderFinite .document x else "null".toList

def Number.chars : Number → List Char
  | .unsigned n => (toString n.toNat).toList
  | .negative i => intChars i
  | .float x => floatChars x

mutual

def chars : Json → List Char
  | .null => "null".toList
  | .bool b => boolChars b
  | .number n => n.chars
  | .string s => quote s
  | .array items => '[' :: itemChars items ++ [']']
  | .object members => '\x7b' :: memberChars members ++ ['\x7d']

def itemChars : List Json → List Char
  | [] => []
  | j :: rest => chars j ++ moreItemChars rest

def moreItemChars : List Json → List Char
  | [] => []
  | j :: rest => ',' :: chars j ++ moreItemChars rest

def memberChars : List (String × Json) → List Char
  | [] => []
  | (name, j) :: rest => quote name ++ ':' :: chars j ++ moreMemberChars rest

def moreMemberChars : List (String × Json) → List Char
  | [] => []
  | (name, j) :: rest => ',' :: quote name ++ ':' :: chars j ++ moreMemberChars rest

end

def write (j : Json) : String := String.ofList j.chars

end Conformance.Json
