import Conformance.Address.V4
import Conformance.Text.Quoted

/-! # Internet addresses of version 6 -/

namespace Conformance.Address

structure V6 where
  groups : List UInt16
  length_groups : groups.length = 8
deriving DecidableEq

namespace V6

/-! ## Reading -/

def hexValue? (c : Char) : Option Nat :=
  if Decimal.isAsciiDigit c then some (c.toNat - '0'.toNat)
  else if 'a' ≤ c && c ≤ 'f' then some (c.toNat - 'a'.toNat + 10)
  else if 'A' ≤ c && c ≤ 'F' then some (c.toNat - 'A'.toNat + 10)
  else none

def group? (cs : List Char) : Option UInt16 := do
  let digits ← cs.mapM hexValue?
  if 1 ≤ cs.length && cs.length ≤ 4 then
    return UInt16.ofNat (digits.foldl (fun n d => 16 * n + d) 0)
  else none

def ofV4 (x : V4) : List UInt16 :=
  [x.a.toUInt16 * 256 + x.b.toUInt16, x.c.toUInt16 * 256 + x.d.toUInt16]

/-- The last part of an address may be one of version 4, in the place of two groups. -/
def lastGroups? (cs : List Char) : Option (List UInt16) :=
  match group? cs with
  | some g => some [g]
  | none => (V4.read? cs).map ofV4

/-- Groups between colons; only at the end of the address one of version 4 may stand. -/
def groups? (atEnd : Bool) : List (List Char) → Option (List UInt16)
  | [] => some []
  | [cs] => if atEnd then lastGroups? cs else (group? cs).map ([·])
  | cs :: rest => do return (← group? cs) :: (← groups? atEnd rest)

def part? (atEnd : Bool) (cs : List Char) : Option (List UInt16) :=
  if cs.isEmpty then some [] else groups? atEnd (cs.splitOn ':')

def splitGap : List Char → Option (List Char × List Char)
  | ':' :: ':' :: rest => some ([], rest)
  | c :: rest => (splitGap rest).map fun (before, after) => (c :: before, after)
  | [] => none

def ofGroups? (gs : List UInt16) : Option V6 :=
  if h : gs.length = 8 then some ⟨gs, h⟩ else none

/-- A double colon stands for one group of zero or more. -/
def read? (cs : List Char) : Option V6 := do
  match splitGap cs with
  | none => ofGroups? (← part? true cs)
  | some (before, after) =>
    let front ← part? false before
    let back ← part? true after
    if front.length + back.length ≤ 7 then
      ofGroups? (front ++ List.replicate (8 - front.length - back.length) 0 ++ back)
    else none

/-! ## Writing -/

def groupChars (g : UInt16) : List Char := Text.hexDigits g.toNat

def joinGroups : List UInt16 → List Char
  | [] => []
  | [g] => groupChars g
  | g :: rest => groupChars g ++ ':' :: joinGroups rest

def zeros (gs : List UInt16) : Nat := (gs.takeWhile (· == 0)).length

/-- Start and length of the longest run of zero groups, the first of several. -/
def longestGap (gs : List UInt16) : Nat × Nat :=
  (List.range gs.length).foldl
    (fun best i => if best.2 < zeros (gs.drop i) then (i, zeros (gs.drop i)) else best) (0, 0)

/-- The address of version 4 that is embedded behind five groups of zero and one of ones. -/
def mapped? (x : V6) : Option V4 :=
  match x.groups with
  | [0, 0, 0, 0, 0, 0xFFFF, g, h] =>
    some ⟨(g >>> 8).toUInt8, g.toUInt8, (h >>> 8).toUInt8, h.toUInt8⟩
  | _ => none

/-- A gap of two groups or more is written as a double colon. -/
def chars (x : V6) : List Char :=
  match x.mapped? with
  | some v4 => "::ffff:".toList ++ v4.chars
  | none =>
    let (start, length) := longestGap x.groups
    if 2 ≤ length then
      joinGroups (x.groups.take start) ++ ':' :: ':' :: joinGroups (x.groups.drop (start + length))
    else joinGroups x.groups

end V6

end Conformance.Address
