import Conformance.Binary64.Rounding

/-! # Loosely typed values

The trees that a specification is checked against. The order of all values is total and its equality
is identity, so that any value can be a key of a mapping or a member of a set.
-/

namespace Conformance

/-- Members of a set ascend in the order of values, and so do the keys of a mapping. -/
inductive Value where
  | null
  | bool (b : Bool)
  | int (i : Int64)
  | float (x : Binary64)
  | str (s : String)
  | list (items : List Value)
  | tuple (items : List Value)
  | set (members : List Value)
  | map (entries : List (Value × Value))

namespace Value

instance : Inhabited Value := ⟨.null⟩

def rank : Value → Nat
  | .null => 0
  | .bool _ => 1
  | .int _ => 2
  | .float _ => 3
  | .str _ => 4
  | .list _ => 5
  | .tuple _ => 6
  | .set _ => 7
  | .map _ => 8

mutual

/-- The order of all values: by variant, then by content, collections lexicographically. -/
def compare : Value → Value → Ordering
  | .null, .null => .eq
  | .bool a, .bool b => Ord.compare a b
  | .int a, .int b => Ord.compare a b
  | .float a, .float b => a.compareRank b
  | .str a, .str b => Ord.compare a b
  | .list xs, .list ys => compareItems xs ys
  | .tuple xs, .tuple ys => compareItems xs ys
  | .set xs, .set ys => compareItems xs ys
  | .map xs, .map ys => compareEntries xs ys
  | a, b => Ord.compare a.rank b.rank

def compareItems : List Value → List Value → Ordering
  | [], [] => .eq
  | [], _ :: _ => .lt
  | _ :: _, [] => .gt
  | x :: xs, y :: ys => (compare x y).then (compareItems xs ys)

def compareEntries : List (Value × Value) → List (Value × Value) → Ordering
  | [], [] => .eq
  | [], _ :: _ => .lt
  | _ :: _, [] => .gt
  | (k, v) :: xs, (k', v') :: ys =>
    (compare k k').then ((compare v v').then (compareEntries xs ys))

end

instance : Ord Value := ⟨compare⟩

mutual

theorem compare_self : ∀ a : Value, compare a a = .eq
  | .null => by simp [compare]
  | .bool a => by simp [compare]
  | .int a => by simp [compare]
  | .float a => by simp [compare, Binary64.compareRank_eq_iff]
  | .str a => by simp [compare]
  | .list xs => by simpa [compare] using compareItems_self xs
  | .tuple xs => by simpa [compare] using compareItems_self xs
  | .set xs => by simpa [compare] using compareItems_self xs
  | .map xs => by simpa [compare] using compareEntries_self xs

theorem compareItems_self : ∀ xs : List Value, compareItems xs xs = .eq
  | [] => by simp [compareItems]
  | x :: xs => by simp [compareItems, compare_self x, compareItems_self xs]

theorem compareEntries_self : ∀ xs : List (Value × Value), compareEntries xs xs = .eq
  | [] => by simp [compareEntries]
  | (k, v) :: xs => by
    simp [compareEntries, compare_self k, compare_self v, compareEntries_self xs]

end

mutual

theorem eq_of_compare : ∀ {a b : Value}, compare a b = .eq → a = b
  | .null, b, h => by cases b <;> simp_all [compare, rank]
  | .bool a, b, h => by cases b <;> simp_all [compare, rank]
  | .int a, b, h => by cases b <;> simp_all [compare, rank]
  | .float a, b, h => by cases b <;> simp_all [compare, rank, Binary64.compareRank_eq_iff]
  | .str a, b, h => by cases b <;> simp_all [compare, rank]
  | .list xs, b, h => by
    cases b
    case list ys => exact congrArg list (eq_of_compareItems (by simpa [compare] using h))
    all_goals simp [compare, rank] at h
  | .tuple xs, b, h => by
    cases b
    case tuple ys => exact congrArg tuple (eq_of_compareItems (by simpa [compare] using h))
    all_goals simp [compare, rank] at h
  | .set xs, b, h => by
    cases b
    case set ys => exact congrArg set (eq_of_compareItems (by simpa [compare] using h))
    all_goals simp [compare, rank] at h
  | .map xs, b, h => by
    cases b
    case map ys => exact congrArg map (eq_of_compareEntries (by simpa [compare] using h))
    all_goals simp [compare, rank] at h

theorem eq_of_compareItems : ∀ {xs ys : List Value}, compareItems xs ys = .eq → xs = ys
  | [], ys, h => by cases ys <;> simp_all [compareItems]
  | x :: xs, [], h => by simp [compareItems] at h
  | x :: xs, y :: ys, h => by
    simp only [compareItems, Ordering.then_eq_eq] at h
    rw [eq_of_compare h.1, eq_of_compareItems h.2]

theorem eq_of_compareEntries :
    ∀ {xs ys : List (Value × Value)}, compareEntries xs ys = .eq → xs = ys
  | [], ys, h => by cases ys <;> simp_all [compareEntries]
  | (k, v) :: xs, [], h => by simp [compareEntries] at h
  | (k, v) :: xs, (k', v') :: ys, h => by
    simp only [compareEntries, Ordering.then_eq_eq] at h
    rw [eq_of_compare h.1, eq_of_compare h.2.1, eq_of_compareEntries h.2.2]

end

theorem compare_eq_iff {a b : Value} : compare a b = .eq ↔ a = b :=
  ⟨eq_of_compare, fun h => h ▸ compare_self a⟩

instance : DecidableEq Value := fun _ _ => decidable_of_iff _ compare_eq_iff

/-- A natural above the integers becomes the nearest floating-point number. -/
def ofUnsigned (n : UInt64) : Value :=
  if n ≤ 0x7FFFFFFFFFFFFFFF then .int (Int64.ofNat n.toNat) else .float (.ofInt n.toNat)

/-! ## Views -/

def isNull : Value → Bool
  | .null => true
  | _ => false

def isTruthy : Value → Bool
  | .null => false
  | .bool b => b
  | .int i => i != 0
  | .float x => !x.isZero
  | .str s => s != ""
  | .list items => !items.isEmpty
  | .tuple items => !items.isEmpty
  | .set members => !members.isEmpty
  | .map entries => !entries.isEmpty

def toBool? : Value → Option Bool
  | .bool b => some b
  | _ => none

def toInt? : Value → Option Int64
  | .int i => some i
  | _ => none

/-- An integer that no floating-point number equals counts as the nearest one. -/
def toNumber? : Value → Option Binary64
  | .int i => some (.ofInt i.toInt)
  | .float x => some x
  | _ => none

def toText? : Value → Option String
  | .str s => some s
  | _ => none

def sequence? : Value → Option (List Value)
  | .list items => some items
  | .tuple items => some items
  | _ => none

def elements? : Value → Option (List Value)
  | .list items => some items
  | .tuple items => some items
  | .set members => some members
  | _ => none

def entries? : Value → Option (List (Value × Value))
  | .map entries => some entries
  | _ => none

def length? : Value → Option Nat
  | .str s => some s.length
  | .list items => some items.length
  | .tuple items => some items.length
  | .set members => some members.length
  | .map entries => some entries.length
  | _ => none

/-! ## Comparison of bounds -/

/-- Integers and floating-point numbers compare as numbers; other values compare with their own
variant only. -/
def relate? : Value → Value → Option Ordering
  | .int a, .int b => some (Ord.compare a b)
  | .int a, .float b => (Binary64.ofInt a.toInt).compareLine? b
  | .float a, .int b => a.compareLine? (Binary64.ofInt b.toInt)
  | .float a, .float b => a.compareLine? b
  | a, b => if a.rank = b.rank then some (compare a b) else none

end Value

end Conformance
