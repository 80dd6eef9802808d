import Conformance.Json.Number

/-! # Tokens of JSON text -/

namespace Conformance.Json

inductive Token where
  | openArray
  | closeArray
  | openObject
  | closeObject
  | comma
  | colon
  | null
  | bool (b : Bool)
  | number (n : Number)
  | string (s : String)
deriving DecidableEq

namespace Token

/-- What the reader is inside of. Characters that have been read stand in reverse order. -/
inductive Mode where
  | between
  | number (read : List Char)
  | word (read : List Char)
  | text (read : List Char)
  | escape (read : List Char)
  /-- Behind `\u`, with the value of the digits so far; `high` is the first half of a pair. -/
  | hex (read : List Char) (high : Option Nat) (digits value : Nat)
  /-- Behind the first half of a pair, which needs a second one. -/
  | half (read : List Char) (high : Nat)
  | halfEscape (read : List Char) (high : Nat)
deriving DecidableEq

/-- Tokens are collected in reverse order. -/
structure State where
  tokens : List Token
  mode : Mode

def isBlank (c : Char) : Bool := c = ' ' || c = '\t' || c = '\n' || c = '\r'

def isNumeric (c : Char) : Bool :=
  Decimal.isAsciiDigit c || c = '-' || c = '+' || c = '.' || c = 'e' || c = 'E'

def isLetter (c : Char) : Bool := 'a' ≤ c && c ≤ 'z'

def punctuation : List (Char × Token) :=
  [('[', .openArray), (']', .closeArray), ('\x7b', .openObject), ('\x7d', .closeObject),
    (',', .comma), (':', .colon)]

def ofWord? (cs : List Char) : Option Token :=
  if cs = "null".toList then some .null
  else if cs = "true".toList then some (.bool true)
  else if cs = "false".toList then some (.bool false)
  else none

def between (tokens : List Token) (c : Char) : Option State :=
  match punctuation.lookup c with
  | some t => some ⟨t :: tokens, .between⟩
  | none =>
    if isBlank c then some ⟨tokens, .between⟩
    else if c = '"' then some ⟨tokens, .text []⟩
    else if Decimal.isAsciiDigit c || c = '-' then some ⟨tokens, .number [c]⟩
    else if isLetter c then some ⟨tokens, .word [c]⟩
    else none

def escapes : List (Char × Char) :=
  [('"', '"'), ('\\', '\\'), ('/', '/'), ('b', '\x08'), ('f', '\x0c'), ('n', '\n'), ('r', '\r'),
    ('t', '\t')]

def hexDigit? (c : Char) : Option Nat :=
  if Decimal.isAsciiDigit c then some (c.toNat - '0'.toNat)
  else if 'a' ≤ c && c ≤ 'f' then some (c.toNat - 'a'.toNat + 10)
  else if 'A' ≤ c && c ≤ 'F' then some (c.toNat - 'A'.toNat + 10)
  else none

/-- Four digits name a character, or half of a pair; the halves come in order and together. -/
def closeHex (read : List Char) (high : Option Nat) (n : Nat) : Option Mode :=
  let isHigh := 0xD800 ≤ n && n ≤ 0xDBFF
  let isLow := 0xDC00 ≤ n && n ≤ 0xDFFF
  match high with
  | some h =>
    if isLow then some (.text (Char.ofNat (0x10000 + (h - 0xD800) * 0x400 + (n - 0xDC00)) :: read))
    else none
  | none =>
    if isHigh then some (.half read n)
    else if isLow then none
    else some (.text (Char.ofNat n :: read))

def inText (tokens : List Token) (read : List Char) (c : Char) : Option State :=
  if c = '"' then some ⟨.string (String.ofList read.reverse) :: tokens, .between⟩
  else if c = '\\' then some ⟨tokens, .escape read⟩
  else if c.toNat < 0x20 then none
  else some ⟨tokens, .text (c :: read)⟩

def inEscape (tokens : List Token) (read : List Char) (c : Char) : Option State :=
  if c = 'u' then some ⟨tokens, .hex read none 0 0⟩
  else (escapes.lookup c).map fun d => ⟨tokens, .text (d :: read)⟩

def step (s : State) (c : Char) : Option State :=
  match s.mode with
  | .between => between s.tokens c
  | .number read =>
    if isNumeric c then some ⟨s.tokens, .number (c :: read)⟩
    else (Number.read? read.reverse).bind fun n => between (.number n :: s.tokens) c
  | .word read =>
    if isLetter c then some ⟨s.tokens, .word (c :: read)⟩
    else (ofWord? read.reverse).bind fun t => between (t :: s.tokens) c
  | .text read => inText s.tokens read c
  | .escape read => inEscape s.tokens read c
  | .hex read high digits value => do
    let d ← hexDigit? c
    if digits = 3 then return ⟨s.tokens, ← closeHex read high (16 * value + d)⟩
    else return ⟨s.tokens, .hex read high (digits + 1) (16 * value + d)⟩
  | .half read high => if c = '\\' then some ⟨s.tokens, .halfEscape read high⟩ else none
  | .halfEscape read high => if c = 'u' then some ⟨s.tokens, .hex read (some high) 0 0⟩ else none

/-- A number or a word may end with the text, a string may not. -/
def finish (s : State) : Option (List Token) :=
  match s.mode with
  | .between => some s.tokens.reverse
  | .number read => (Number.read? read.reverse).map fun n => (.number n :: s.tokens).reverse
  | .word read => (ofWord? read.reverse).map fun t => (t :: s.tokens).reverse
  | _ => none

def read? (cs : List Char) : Option (List Token) :=
  (cs.foldlM step ⟨[], .between⟩).bind finish

end Token

end Conformance.Json
