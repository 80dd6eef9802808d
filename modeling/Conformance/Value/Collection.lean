import Conformance.Value

/-! # Sets and mappings as ascending lists

Lists are kept in the order of values, without repetition; on such lists equality of the lists is
equality of the collections.
-/

namespace Conformance.Value

abbrev Entries := List (Value × Value)

/-! ## Members -/

def insertMember (v : Value) : List Value → List Value
  | [] => [v]
  | w :: rest =>
    match compare v w with
    | .lt => v :: w :: rest
    | .eq => w :: rest
    | .gt => w :: insertMember v rest

def members (items : List Value) : List Value :=
  items.foldl (fun acc v => insertMember v acc) []

def ofMembers (items : List Value) : Value := .set (members items)

theorem mem_insertMember {v w : Value} {xs : List Value} :
    w ∈ insertMember v xs ↔ w = v ∨ w ∈ xs := by
  induction xs with
  | nil => simp [insertMember]
  | cons x rest ih =>
    simp only [insertMember]
    split
    · simp
    · next h =>
      rw [eq_of_compare h]
      simp
    · simp only [List.mem_cons, ih]
      grind

/-! ## Entries -/

namespace Entries

def insert (k v : Value) : Entries → Entries
  | [] => [(k, v)]
  | (k', v') :: rest =>
    match compare k k' with
    | .lt => (k, v) :: (k', v') :: rest
    | .eq => (k, v) :: rest
    | .gt => (k', v') :: insert k v rest

/-- Of several entries with one key the last is kept. -/
def ofList (items : List (Value × Value)) : Entries :=
  items.foldl (fun acc e => insert e.1 e.2 acc) []

def get? (k : Value) : Entries → Option Value
  | [] => none
  | (k', v) :: rest => if k = k' then some v else get? k rest

def keys (m : Entries) : List Value := m.map Prod.fst

def contains (m : Entries) (k : Value) : Bool := m.keys.contains k

theorem get?_insert_self (k v : Value) (m : Entries) : get? k (insert k v m) = some v := by
  induction m with
  | nil => simp [insert, get?]
  | cons e rest ih =>
    obtain ⟨k', v'⟩ := e
    simp only [insert]
    split
    · simp [get?]
    · simp [get?]
    · next h =>
      have : k ≠ k' := fun e => by simp [e, compare_self] at h
      simp [get?, this, ih]

end Entries

def ofEntries (items : List (Value × Value)) : Value := .map (Entries.ofList items)

def get? (v k : Value) : Option Value :=
  match v with
  | .map entries => Entries.get? k entries
  | _ => none

/-! ## Membership -/

def isInfix (part : List Char) : List Char → Bool
  | [] => part.isEmpty
  | c :: rest => part.isPrefixOf (c :: rest) || isInfix part rest

def contains : Value → Value → Bool
  | .str whole, .str part => isInfix part.toList whole.toList
  | .list items, v => items.contains v
  | .tuple items, v => items.contains v
  | .set members, v => members.contains v
  | .map entries, v => Entries.contains entries v
  | _, _ => false

end Conformance.Value
