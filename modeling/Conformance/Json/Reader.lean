import Conformance.Json.Token

/-! # Reading JSON text

Tokens are read in one pass with a stack of the arrays and objects that are open.
-/

namespace Conformance.Json

/-- An open array or object with what it holds so far, in reverse order. -/
inductive Frame where
  | array (items : List Json)
  /-- The last name still waits for its value. -/
  | object (members : List (String × Json)) (name : String)

inductive Place where
  | value
  /-- A value, or the end of an array without any. -/
  | firstItem
  | name (members : List (String × Json))
  /-- A name, or the end of an object without any. -/
  | firstName
  | colon (members : List (String × Json)) (name : String)
  /-- A comma, or the end of the array. -/
  | afterItem (items : List Json)
  | afterMember (members : List (String × Json))
  | finished (j : Json)

structure State where
  stack : List Frame
  place : Place

def depthLimit : Nat := 127

namespace State

def initial : State := ⟨[], .value⟩

def complete (stack : List Frame) (j : Json) : State :=
  match stack with
  | [] => ⟨[], .finished j⟩
  | .array items :: rest => ⟨rest, .afterItem (j :: items)⟩
  | .object members name :: rest => ⟨rest, .afterMember ((name, j) :: members)⟩

def open? (stack : List Frame) (place : Place) : Option State :=
  if stack.length < depthLimit then some ⟨stack, place⟩ else none

def value (stack : List Frame) : Token → Option State
  | .null => some (complete stack .null)
  | .bool b => some (complete stack (.bool b))
  | .number n => some (complete stack (.number n))
  | .string s => some (complete stack (.string s))
  | .openArray => open? stack .firstItem
  | .openObject => open? stack .firstName
  | _ => none

def step (s : State) (t : Token) : Option State :=
  match s.place, t with
  | .value, t => value s.stack t
  | .firstItem, .closeArray => some (complete s.stack (.array []))
  | .firstItem, t => value (.array [] :: s.stack) t
  | .firstName, .closeObject => some (complete s.stack (.object []))
  | .firstName, .string name => some ⟨s.stack, .colon [] name⟩
  | .name members, .string name => some ⟨s.stack, .colon members name⟩
  | .colon members name, .colon => some ⟨.object members name :: s.stack, .value⟩
  | .afterItem items, .comma => some ⟨.array items :: s.stack, .value⟩
  | .afterItem items, .closeArray => some (complete s.stack (.array items.reverse))
  | .afterMember members, .comma => some ⟨s.stack, .name members⟩
  | .afterMember members, .closeObject => some (complete s.stack (.object members.reverse))
  | _, _ => none

def result? (s : State) : Option Json :=
  match s.place with
  | .finished j => some j
  | _ => none

end State

def ofTokens? (ts : List Token) : Option Json :=
  (ts.foldlM State.step State.initial).bind State.result?

def read? (text : String) : Option Json := (Token.read? text.toList).bind ofTokens?

end Conformance.Json
