import Conformance.Binary64.Rounding

/-! # JSON documents -/

namespace Conformance

namespace Json

/-- A number as it is read: a natural of 64 bits, a negative integer of 64 bits, or else a
floating-point number. -/
inductive Number where
  | unsigned (n : UInt64)
  | negative (i : Int64)
  | float (x : Binary64)
deriving DecidableEq

namespace Number

def toInteger? : Number → Option Int64
  | .unsigned n => if n ≤ 0x7FFFFFFFFFFFFFFF then some (Int64.ofNat n.toNat) else none
  | .negative i => some i
  | .float _ => none

def toFloat : Number → Binary64
  | .unsigned n => .ofInt n.toNat
  | .negative i => .ofInt i.toInt
  | .float x => x

end Number

end Json

/-- Members of an object stand as they are written; a tree has them ascending by name. -/
inductive Json where
  | null
  | bool (b : Bool)
  | number (n : Json.Number)
  | string (s : String)
  | array (items : List Json)
  | object (members : List (String × Json))

namespace Json

def insertMember (name : String) (j : Json) : List (String × Json) → List (String × Json)
  | [] => [(name, j)]
  | (name', j') :: rest =>
    match compare name name' with
    | .lt => (name, j) :: (name', j') :: rest
    | .eq => (name, j) :: rest
    | .gt => (name', j') :: insertMember name j rest

def sortMembers (members : List (String × Json)) : List (String × Json) :=
  members.foldl (fun acc m => insertMember m.1 m.2 acc) []

mutual

/-- The tree of a document: of several members with one name the last is kept. -/
def tree : Json → Json
  | .array items => .array (treeItems items)
  | .object members => .object (sortMembers (treeMembers members))
  | j => j

def treeItems : List Json → List Json
  | [] => []
  | j :: rest => tree j :: treeItems rest

def treeMembers : List (String × Json) → List (String × Json)
  | [] => []
  | (name, j) :: rest => (name, tree j) :: treeMembers rest

end

end Json

end Conformance
