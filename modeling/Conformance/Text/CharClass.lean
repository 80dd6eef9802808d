/-! # Classes and mappings of characters by code point -/

namespace Conformance.Text

/-- A set of characters as closed ranges of code points, ascending and disjoint. -/
structure CharClass where
  ranges : List (Nat × Nat)
deriving DecidableEq

namespace CharClass

/-- The ranges ascend, so the first one that reaches `n` decides. -/
def search : List (Nat × Nat) → Nat → Bool
  | [], _ => false
  | (lo, hi) :: rest, n => if n ≤ hi then lo ≤ n else search rest n

def mem (k : CharClass) (c : Char) : Bool := search k.ranges c.toNat

/-- Joins what touches or overlaps, of ranges that ascend by their first code point. -/
def join (current : Nat × Nat) : List (Nat × Nat) → List (Nat × Nat)
  | [] => [current]
  | (lo, hi) :: rest =>
    if lo ≤ current.2 + 1 then join (current.1, max current.2 hi) rest
    else current :: join (lo, hi) rest

def ofRanges (rs : List (Nat × Nat)) : CharClass :=
  match rs.mergeSort fun a b => a.1 ≤ b.1 with
  | [] => ⟨[]⟩
  | r :: rest => ⟨join r rest⟩

def ofChars (cs : List Char) : CharClass := ofRanges (cs.map fun c => (c.toNat, c.toNat))

def lastCodePoint : Nat := 0x10FFFF

def gaps (n : Nat) : List (Nat × Nat) → List (Nat × Nat)
  | [] => if n ≤ lastCodePoint then [(n, lastCodePoint)] else []
  | (lo, hi) :: rest => if n < lo then (n, lo - 1) :: gaps (hi + 1) rest else gaps (hi + 1) rest

def complement (k : CharClass) : CharClass := ⟨gaps 0 k.ranges⟩

def union (k l : CharClass) : CharClass := ofRanges (k.ranges ++ l.ranges)

def single? (k : CharClass) : Option Char :=
  match k.ranges with
  | [(lo, hi)] => if lo = hi then some (Char.ofNat lo) else none
  | _ => none

end CharClass

/-- Characters `first`, `first + step`, …, `last`, each mapped `shift` code points further. -/
structure CaseRun where
  first : Nat
  last : Nat
  step : Nat
  shift : Int

namespace CaseRun

def covers (r : CaseRun) (n : Nat) : Bool :=
  r.first ≤ n && n ≤ r.last && (n - r.first) % r.step == 0

/-- A character that no run covers maps to itself. -/
def apply (runs : List CaseRun) (c : Char) : Char :=
  match runs.find? (·.covers c.toNat) with
  | some r => Char.ofNat ((c.toNat : Int) + r.shift).toNat
  | none => c

def chars (r : CaseRun) : List Char :=
  (List.range ((r.last - r.first) / r.step + 1)).map fun i => Char.ofNat (r.first + i * r.step)

def preimages (runs : List CaseRun) (c : Char) : List Char :=
  runs.filterMap fun r =>
    let n := ((c.toNat : Int) - r.shift).toNat
    if r.covers n then some (Char.ofNat n) else none

end CaseRun

end Conformance.Text
