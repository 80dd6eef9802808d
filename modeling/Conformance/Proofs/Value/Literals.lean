import Conformance.Proofs.Text.Quoted
import Conformance.Proofs.Value.Sorted
import Conformance.Value.Render

/-! # Literal forms tell values apart

A literal form is read from its left end. Its first character tells the kind of the value, sets and
mappings apart, and behind a value stands the end of the text or a character that no literal goes on
with, so each part of a collection ends in one place only. A set and a mapping come apart at what
follows the first member or the first key; the empty set has the form of the empty mapping.
-/

namespace Conformance.Value

open Text (Stops stops_nil stops_cons)

/-! ## Texts that end -/

/-- What can follow a value inside of another one or in a message. -/
def boundary : List Char := [',', ':', ']', ')', '\x7d', ' ']

def isWithin (c : Char) : Bool := !boundary.contains c

abbrev Ends (r : List Char) : Prop := Stops isWithin r

/-- The end of a list of values, which does not go on with a comma and a blank. -/
structure Closes (r : List Char) : Prop where
  ends : Ends r
  no_more : ∀ t, r ≠ ',' :: ' ' :: t

theorem closes_of_head {c : Char} {r : List Char} (h : isWithin c = false) (hc : c ≠ ',') :
    Closes (c :: r) :=
  ⟨stops_cons h, fun _ heq => hc (List.head_eq_of_cons_eq heq)⟩

/-- The texts of two things show where they end and whether the two are the same. -/
def Tells {α : Type} (f : α → List Char) (x y : α) : Prop :=
  ∀ r s, Ends r → Ends s → f x ++ r = f y ++ s → x = y ∧ r = s

/-- The text is not empty, and what follows a value does not begin with it. -/
def Begins (cs : List Char) : Prop := ∃ c rest, cs = c :: rest ∧ isWithin c = true

theorem Begins.append_ne {cs r t : List Char} (h : Begins cs) (hr : Ends r) : cs ++ t ≠ r := by
  rintro rfl
  obtain ⟨c, rest, rfl, hc⟩ := h
  exact Bool.false_ne_true ((hr c rfl).symm.trans hc)

/-! ## Rows -/

section Rows

variable {α : Type} {f : α → List Char} {xs ys : List α} {r s : List Char}

def more (f : α → List Char) (xs : List α) : List Char := xs.flatMap fun x => ',' :: ' ' :: f x

def row (f : α → List Char) : List α → List Char
  | [] => []
  | x :: rest => f x ++ more f rest

theorem more_cons (x : α) (rest : List α) :
    more f (x :: rest) ++ r = ',' :: ' ' :: (f x ++ (more f rest ++ r)) := by
  simp [more]

theorem row_cons (x : α) (rest : List α) :
    row f (x :: rest) ++ r = f x ++ (more f rest ++ r) := by
  rw [row, List.append_assoc]

theorem ends_more (hr : Ends r) : Ends (more f xs ++ r) := by
  cases xs with
  | nil => exact hr
  | cons x rest =>
    rw [more_cons]
    exact stops_cons rfl

theorem more_append_inj (h : ∀ x ∈ xs, ∀ y ∈ ys, Tells f x y) (hr : Closes r) (hs : Closes s)
    (heq : more f xs ++ r = more f ys ++ s) : xs = ys ∧ r = s := by
  induction xs generalizing ys with
  | nil =>
    cases ys with
    | nil => exact ⟨rfl, heq⟩
    | cons y ys =>
      rw [more_cons] at heq
      exact absurd heq (hr.no_more _)
  | cons x xs ih =>
    rw [more_cons] at heq
    cases ys with
    | nil => exact absurd heq.symm (hs.no_more _)
    | cons y ys =>
      rw [more_cons] at heq
      have hrest := List.tail_eq_of_cons_eq (List.tail_eq_of_cons_eq heq)
      obtain ⟨rfl, hmore⟩ := h x List.mem_cons_self y List.mem_cons_self _ _ (ends_more hr.ends)
        (ends_more hs.ends) hrest
      have htail : ∀ x ∈ xs, ∀ y ∈ ys, Tells f x y := fun x hx y hy =>
        h x (List.mem_cons_of_mem _ hx) y (List.mem_cons_of_mem _ hy)
      obtain ⟨rfl, hrs⟩ := ih htail hmore
      exact ⟨rfl, hrs⟩

theorem row_append_inj (h : ∀ x ∈ xs, ∀ y ∈ ys, Tells f x y) (hx : ∀ x ∈ xs, Begins (f x))
    (hy : ∀ y ∈ ys, Begins (f y)) (hr : Closes r) (hs : Closes s)
    (heq : row f xs ++ r = row f ys ++ s) : xs = ys ∧ r = s := by
  cases xs with
  | nil =>
    cases ys with
    | nil => exact ⟨rfl, heq⟩
    | cons y ys =>
      rw [row_cons] at heq
      exact absurd heq.symm ((hy y List.mem_cons_self).append_ne hr.ends)
  | cons x xs =>
    cases ys with
    | nil =>
      rw [row_cons] at heq
      exact absurd heq ((hx x List.mem_cons_self).append_ne hs.ends)
    | cons y ys =>
      rw [row_cons, row_cons] at heq
      obtain ⟨rfl, hmore⟩ := h x List.mem_cons_self y List.mem_cons_self _ _ (ends_more hr.ends)
        (ends_more hs.ends) heq
      have htail : ∀ x ∈ xs, ∀ y ∈ ys, Tells f x y := fun x hx y hy =>
        h x (List.mem_cons_of_mem _ hx) y (List.mem_cons_of_mem _ hy)
      obtain ⟨rfl, hrs⟩ := more_append_inj htail hr hs hmore
      exact ⟨rfl, hrs⟩

/-- A row between brackets ends at the one that closes. -/
theorem enclosed_append_inj {o c : Char} (h : ∀ x ∈ xs, ∀ y ∈ ys, Tells f x y)
    (hx : ∀ x ∈ xs, Begins (f x)) (hy : ∀ y ∈ ys, Begins (f y)) (hc : isWithin c = false)
    (hne : c ≠ ',') (heq : o :: (row f xs ++ c :: r) = o :: (row f ys ++ c :: s)) :
    xs = ys ∧ r = s := by
  obtain ⟨hrow, hrest⟩ := row_append_inj h hx hy (closes_of_head hc hne) (closes_of_head hc hne)
    (List.tail_eq_of_cons_eq heq)
  exact ⟨hrow, List.tail_eq_of_cons_eq hrest⟩

end Rows

def pairChars (e : Value × Value) : List Char := e.1.chars ++ ':' :: ' ' :: e.2.chars

theorem moreItemChars_eq (items : List Value) : moreItemChars items = more chars items := by
  induction items with
  | nil => rfl
  | cons v rest ih =>
    rw [moreItemChars, ih]
    rfl

theorem itemChars_eq (items : List Value) : itemChars items = row chars items := by
  cases items with
  | nil => rfl
  | cons v rest => rw [itemChars, moreItemChars_eq, row]

theorem toList_renderAll (vs : List Value) : (renderAll vs).toList = row chars vs := by
  induction vs with
  | nil => rfl
  | cons v rest ih =>
    cases rest with
    | nil => simp [renderAll, row, more, render]
    | cons w rest =>
      rw [renderAll, List.map_cons, List.map_cons, String.intercalate_cons_cons, ← List.map_cons,
        ← renderAll, String.toList_append, String.toList_append, ih]
      simp [row, more, render]

theorem moreEntryChars_eq (m : Entries) : moreEntryChars m = more pairChars m := by
  induction m with
  | nil => rfl
  | cons e rest ih =>
    obtain ⟨k, v⟩ := e
    rw [moreEntryChars, ih]
    simp [more, pairChars]

theorem entryChars_eq (m : Entries) : entryChars m = row pairChars m := by
  cases m with
  | nil => rfl
  | cons e rest =>
    obtain ⟨k, v⟩ := e
    rw [entryChars, moreEntryChars_eq, row, pairChars]

def tupleEnd (items : List Value) : List Char :=
  (if items.length = 1 then [','] else []) ++ [')']

section Forms

variable (items : List Value) (m : Entries) (r : List Char)

theorem list_chars_append : (list items).chars ++ r = '[' :: (row chars items ++ ']' :: r) := by
  rw [chars, itemChars_eq]
  simp

theorem tuple_chars_append :
    (tuple items).chars ++ r = '(' :: (row chars items ++ (tupleEnd items ++ r)) := by
  rw [chars, itemChars_eq]
  simp [tupleEnd]

theorem set_chars_append :
    (set items).chars ++ r = '\x7b' :: (row chars items ++ '\x7d' :: r) := by
  rw [chars, itemChars_eq]
  simp

theorem map_chars_append : (map m).chars ++ r = '\x7b' :: (row pairChars m ++ '\x7d' :: r) := by
  rw [chars, entryChars_eq]
  simp

end Forms

theorem closes_tupleEnd (items : List Value) (r : List Char) : Closes (tupleEnd items ++ r) := by
  rw [tupleEnd]
  by_cases h : items.length = 1
  · rw [if_pos h]
    exact ⟨stops_cons rfl, fun t ht => by cases ht⟩
  · rw [if_neg h]
    exact closes_of_head rfl (by decide)

/-! ## The first character -/

/-- A value with a literal form of its own: no float, and no empty set. -/
def HasForm : Value → Prop
  | .float _ => False
  | .set members => members ≠ []
  | _ => True

/-- Everything in the value has a literal form of its own, the keys of mappings included. -/
def Legible (v : Value) : Prop := ∀ w, v.Encloses w → w.HasForm

theorem legible_iff {v : Value} : v.Legible ↔ v.HasForm ∧ ∀ w ∈ v.content, w.Legible :=
  forall_reflTransGen_iff

/-- The rank of a value, as far as the first character of its literal form tells it. -/
def form : Value → Nat
  | .set _ => 8
  | v => v.rank

def leads : List (Char × Nat) :=
  [('n', 0), ('t', 1), ('f', 1), ('-', 2), ('0', 2), ('1', 2), ('2', 2), ('3', 2), ('4', 2),
    ('5', 2), ('6', 2), ('7', 2), ('8', 2), ('9', 2), ('"', 4), ('[', 5), ('(', 6), ('\x7b', 8)]

theorem isWithin_of_lead {c : Char} {n : Nat} (h : leads.lookup c = some n) :
    isWithin c = true := by
  by_contra hc
  have hmem : c ∈ boundary := by simpa [isWithin] using hc
  have hnone := List.all_eq_true.mp
    (rfl : boundary.all (fun d => (leads.lookup d).isNone) = true) c hmem
  rw [h] at hnone
  cases hnone

theorem int_chars (i : Int64) :
    (0 ≤ i.toInt ∧ (int i).chars = Nat.toDigits 10 i.toInt.toNat) ∨
      (i.toInt < 0 ∧ (int i).chars = '-' :: Nat.toDigits 10 (-i.toInt).toNat) := by
  have hrepr : (int i).chars = i.toInt.repr.toList := rfl
  rw [hrepr, Int.repr_eq_if]
  by_cases h : 0 ≤ i.toInt
  · rw [if_pos h, Nat.toList_repr]
    exact .inl ⟨h, rfl⟩
  · rw [if_neg h, String.toList_append, Nat.toList_repr]
    exact .inr ⟨by omega, rfl⟩

theorem lookup_of_mem_toDigits {c : Char} {n : Nat} (h : c ∈ Nat.toDigits 10 n) :
    leads.lookup c = some 2 := by
  have hdigit : ∀ d < 10, leads.lookup (Nat.digitChar d) = some 2 := by decide
  obtain ⟨d, hd, rfl⟩ := Text.exists_of_mem_toDigits (by decide) h
  exact hdigit d hd

theorem exists_digit (n : Nat) :
    ∃ c rest, Nat.toDigits 10 n = c :: rest ∧ c ∈ Nat.toDigits 10 n := by
  obtain ⟨c, rest, hdigits⟩ := List.exists_cons_of_ne_nil (Nat.toDigits_ne_nil (b := 10) (n := n))
  refine ⟨c, rest, hdigits, ?_⟩
  rw [hdigits]
  exact List.mem_cons_self

theorem exists_lead {v : Value} (h : v.HasForm) :
    ∃ c rest, v.chars = c :: rest ∧ leads.lookup c = some v.form := by
  cases v with
  | null => exact ⟨'n', _, rfl, rfl⟩
  | bool b => cases b <;> exact ⟨_, _, rfl, rfl⟩
  | int i =>
    rcases int_chars i with ⟨-, hchars⟩ | ⟨-, hchars⟩
    · obtain ⟨c, rest, hdigits, hc⟩ := exists_digit i.toInt.toNat
      exact ⟨c, rest, hchars.trans hdigits, lookup_of_mem_toDigits hc⟩
    · exact ⟨'-', _, hchars, rfl⟩
  | float x => exact h.elim
  | str s => exact ⟨'"', _, rfl, rfl⟩
  | list items => exact ⟨'[', _, rfl, rfl⟩
  | tuple items => exact ⟨'(', _, rfl, rfl⟩
  | set members => exact ⟨'\x7b', _, rfl, rfl⟩
  | map m => exact ⟨'\x7b', _, rfl, rfl⟩

theorem begins_chars {v : Value} (h : v.HasForm) : Begins v.chars := by
  obtain ⟨c, rest, hchars, hlead⟩ := exists_lead h
  exact ⟨c, rest, hchars, isWithin_of_lead hlead⟩

theorem begins_pairChars {e : Value × Value} (h : e.1.HasForm) : Begins (pairChars e) := by
  obtain ⟨c, rest, hchars, hc⟩ := begins_chars h
  exact ⟨c, rest ++ ':' :: ' ' :: e.2.chars, by rw [pairChars, hchars, List.cons_append], hc⟩

theorem form_eq {v w : Value} (hv : v.HasForm) (hw : w.HasForm) {r s : List Char}
    (h : v.chars ++ r = w.chars ++ s) : v.form = w.form := by
  obtain ⟨c, rest, hchars, hlead⟩ := exists_lead hv
  obtain ⟨d, rest', hchars', hlead'⟩ := exists_lead hw
  rw [hchars, hchars'] at h
  rw [List.head_eq_of_cons_eq h, hlead'] at hlead
  exact (Option.some.inj hlead).symm

/-! ## Values of one kind -/

theorem tells_bool (a b : Bool) : Tells chars (bool a) (bool b) := by
  intro r s _ _ h
  cases a <;> cases b
  · exact ⟨rfl, List.append_cancel_left h⟩
  · exact absurd (List.head_eq_of_cons_eq h) (by decide)
  · exact absurd (List.head_eq_of_cons_eq h) (by decide)
  · exact ⟨rfl, List.append_cancel_left h⟩

theorem stops_isDigit {r : List Char} (h : Ends r) : Stops Char.isDigit r := by
  intro c hc
  have hmem : c ∈ boundary := by simpa [isWithin] using h c hc
  have hnone := List.all_eq_true.mp (rfl : boundary.all (fun d => !d.isDigit) = true) c hmem
  simpa using hnone

theorem toDigits_append_ne {n : Nat} {r s : List Char} : Nat.toDigits 10 n ++ r ≠ '-' :: s := by
  intro h
  obtain ⟨c, rest, hdigits, hc⟩ := exists_digit n
  have hdigit : c.isDigit = true := Nat.isDigit_of_mem_toDigits (by decide) (by decide) hc
  rw [hdigits, List.cons_append] at h
  rw [List.head_eq_of_cons_eq h] at hdigit
  exact absurd hdigit (by decide)

/-- Digits go on up to a boundary, and a sign is no digit. -/
theorem tells_int (i j : Int64) : Tells chars (int i) (int j) := by
  intro r s hr hs h
  rcases int_chars i with ⟨hi, hchars⟩ | ⟨hi, hchars⟩ <;>
    rcases int_chars j with ⟨hj, hchars'⟩ | ⟨hj, hchars'⟩ <;> rw [hchars, hchars'] at h
  · obtain ⟨hnat, hrest⟩ := Text.decimal_append_inj (stops_isDigit hr) (stops_isDigit hs) h
    have hij : i.toInt = j.toInt := by omega
    exact ⟨congrArg int (Int64.toInt_inj.mp hij), hrest⟩
  · exact absurd h toDigits_append_ne
  · exact absurd h.symm toDigits_append_ne
  · obtain ⟨hnat, hrest⟩ := Text.decimal_append_inj (stops_isDigit hr) (stops_isDigit hs)
      (List.tail_eq_of_cons_eq h)
    have hij : i.toInt = j.toInt := by omega
    exact ⟨congrArg int (Int64.toInt_inj.mp hij), hrest⟩

theorem tells_str (a b : String) : Tells chars (str a) (str b) := by
  intro r s _ _ h
  obtain ⟨rfl, hrest⟩ := Text.quote_append_inj h
  exact ⟨rfl, hrest⟩

section Collections

variable {xs ys : List Value} {m n : Entries}

theorem tells_list (h : ∀ x ∈ xs, ∀ y ∈ ys, Tells chars x y) (hx : ∀ x ∈ xs, x.HasForm)
    (hy : ∀ y ∈ ys, y.HasForm) : Tells chars (list xs) (list ys) := by
  intro r s _ _ heq
  rw [list_chars_append, list_chars_append] at heq
  obtain ⟨rfl, hrest⟩ := enclosed_append_inj h (fun x hx' => begins_chars (hx x hx'))
    (fun y hy' => begins_chars (hy y hy')) rfl (by decide) heq
  exact ⟨rfl, hrest⟩

theorem tells_tuple (h : ∀ x ∈ xs, ∀ y ∈ ys, Tells chars x y) (hx : ∀ x ∈ xs, x.HasForm)
    (hy : ∀ y ∈ ys, y.HasForm) : Tells chars (tuple xs) (tuple ys) := by
  intro r s _ _ heq
  rw [tuple_chars_append, tuple_chars_append] at heq
  obtain ⟨rfl, hrest⟩ := row_append_inj h (fun x hx' => begins_chars (hx x hx'))
    (fun y hy' => begins_chars (hy y hy')) (closes_tupleEnd xs r) (closes_tupleEnd ys s)
    (List.tail_eq_of_cons_eq heq)
  exact ⟨rfl, List.append_cancel_left hrest⟩

theorem tells_set (h : ∀ x ∈ xs, ∀ y ∈ ys, Tells chars x y) (hx : ∀ x ∈ xs, x.HasForm)
    (hy : ∀ y ∈ ys, y.HasForm) : Tells chars (set xs) (set ys) := by
  intro r s _ _ heq
  rw [set_chars_append, set_chars_append] at heq
  obtain ⟨rfl, hrest⟩ := enclosed_append_inj h (fun x hx' => begins_chars (hx x hx'))
    (fun y hy' => begins_chars (hy y hy')) rfl (by decide) heq
  exact ⟨rfl, hrest⟩

theorem tells_pair {d e : Value × Value} (hkey : Tells chars d.1 e.1)
    (hvalue : Tells chars d.2 e.2) : Tells pairChars d e := by
  intro r s hr hs heq
  have hpairs : d.1.chars ++ ':' :: ' ' :: (d.2.chars ++ r) =
      e.1.chars ++ ':' :: ' ' :: (e.2.chars ++ s) := by
    simpa [pairChars] using heq
  obtain ⟨hkeys, hrest⟩ := hkey _ _ (stops_cons rfl) (stops_cons rfl) hpairs
  obtain ⟨hvalues, hrs⟩ :=
    hvalue r s hr hs (List.tail_eq_of_cons_eq (List.tail_eq_of_cons_eq hrest))
  exact ⟨Prod.ext hkeys hvalues, hrs⟩

theorem tells_map (h : ∀ d ∈ m, ∀ e ∈ n, Tells pairChars d e) (hm : ∀ d ∈ m, d.1.HasForm)
    (hn : ∀ e ∈ n, e.1.HasForm) : Tells chars (map m) (map n) := by
  intro r s _ _ heq
  rw [map_chars_append, map_chars_append] at heq
  obtain ⟨rfl, hrest⟩ := enclosed_append_inj h (fun d hd => begins_pairChars (hm d hd))
    (fun e he => begins_pairChars (hn e he)) rfl (by decide) heq
  exact ⟨rfl, hrest⟩

/-- A colon follows the first key of a mapping, and none follows a member of a set. -/
theorem set_chars_ne_map (h : ∀ x ∈ xs, ∀ e ∈ m, Tells chars x e.1) (hx : ∀ x ∈ xs, x.HasForm)
    (hne : xs ≠ []) (r s : List Char) : (set xs).chars ++ r ≠ (map m).chars ++ s := by
  intro heq
  rw [set_chars_append, map_chars_append] at heq
  have hrows := List.tail_eq_of_cons_eq heq
  obtain ⟨x, xs, rfl⟩ := List.exists_cons_of_ne_nil hne
  cases m with
  | nil =>
    rw [row_cons] at hrows
    exact absurd hrows ((begins_chars (hx x List.mem_cons_self)).append_ne (stops_cons rfl))
  | cons e m =>
    have hfirst : x.chars ++ (more chars xs ++ '\x7d' :: r) =
        e.1.chars ++ ':' :: ' ' :: (e.2.chars ++ (more pairChars m ++ '\x7d' :: s)) := by
      simpa [row_cons, pairChars] using hrows
    obtain ⟨-, hrest⟩ := h x List.mem_cons_self e List.mem_cons_self _ _
      (ends_more (stops_cons rfl)) (stops_cons rfl) hfirst
    cases xs with
    | nil => exact absurd (List.head_eq_of_cons_eq hrest) (by decide)
    | cons y ys =>
      rw [more_cons] at hrest
      exact absurd (List.head_eq_of_cons_eq hrest) (by decide)

end Collections

/-! ## All values -/

theorem Tells.symm {α : Type} {f : α → List Char} {x y : α} (h : Tells f x y) : Tells f y x := by
  intro r s hr hs heq
  obtain ⟨hxy, hrs⟩ := h s r hs hr heq.symm
  exact ⟨hxy.symm, hrs.symm⟩

theorem tells_of_legible (v : Value) : v.Legible → ∀ w : Value, w.Legible → Tells chars v w := by
  induction v using content_induction with
  | h v ih =>
    intro hv w hw r s hr hs heq
    obtain ⟨hform, hparts⟩ := legible_iff.mp hv
    obtain ⟨hform', hparts'⟩ := legible_iff.mp hw
    have htell : ∀ x ∈ v.content, ∀ y ∈ w.content, Tells chars x y := fun x hx y hy =>
      ih x hx (hparts x hx) y (hparts' y hy)
    have hforms : ∀ x ∈ v.content, x.HasForm := fun x hx => (legible_iff.mp (hparts x hx)).1
    have hforms' : ∀ y ∈ w.content, y.HasForm := fun y hy => (legible_iff.mp (hparts' y hy)).1
    have hsame := form_eq hform hform' heq
    cases v with
    | null =>
      cases w with
      | null => exact ⟨rfl, List.append_cancel_left heq⟩
      | _ => cases hsame
    | bool a =>
      cases w with
      | bool b => exact tells_bool a b r s hr hs heq
      | _ => cases hsame
    | int i =>
      cases w with
      | int j => exact tells_int i j r s hr hs heq
      | _ => cases hsame
    | float x => exact hform.elim
    | str a =>
      cases w with
      | str b => exact tells_str a b r s hr hs heq
      | _ => cases hsame
    | list xs =>
      cases w with
      | list ys => exact tells_list htell hforms hforms' r s hr hs heq
      | _ => cases hsame
    | tuple xs =>
      cases w with
      | tuple ys => exact tells_tuple htell hforms hforms' r s hr hs heq
      | _ => cases hsame
    | set xs =>
      cases w with
      | set ys => exact tells_set htell hforms hforms' r s hr hs heq
      | map n =>
        have hkeys : ∀ x ∈ xs, ∀ e ∈ n, Tells chars x e.1 := fun x hx e he =>
          htell x hx e.1 (mem_content_map.mpr ⟨e, he, .inl rfl⟩)
        exact absurd heq (set_chars_ne_map hkeys hforms hform r s)
      | _ => cases hsame
    | map m =>
      have hkey : ∀ d ∈ m, d.1 ∈ (map m).content := fun d hd =>
        mem_content_map.mpr ⟨d, hd, .inl rfl⟩
      have hvalue : ∀ d ∈ m, d.2 ∈ (map m).content := fun d hd =>
        mem_content_map.mpr ⟨d, hd, .inr rfl⟩
      cases w with
      | set ys =>
        have hkeys : ∀ y ∈ ys, ∀ d ∈ m, Tells chars y d.1 := fun y hy d hd =>
          (htell d.1 (hkey d hd) y hy).symm
        exact absurd heq.symm (set_chars_ne_map hkeys hforms' hform' s r)
      | map n =>
        have hpairs : ∀ d ∈ m, ∀ e ∈ n, Tells pairChars d e := fun d hd e he =>
          tells_pair (htell _ (hkey d hd) _ (mem_content_map.mpr ⟨e, he, .inl rfl⟩))
            (htell _ (hvalue d hd) _ (mem_content_map.mpr ⟨e, he, .inr rfl⟩))
        exact tells_map hpairs (fun d hd => hforms _ (hkey d hd))
          (fun e he => hforms' _ (mem_content_map.mpr ⟨e, he, .inl rfl⟩)) r s hr hs heq
      | _ => cases hsame

/-- Values one after the other are told by their literal forms, where something else follows. -/
theorem renderAll_append_inj {vs ws : List Value} {r s : List Char} (hv : ∀ v ∈ vs, v.Legible)
    (hw : ∀ w ∈ ws, w.Legible) (hr : Closes r) (hs : Closes s)
    (h : (renderAll vs).toList ++ r = (renderAll ws).toList ++ s) : vs = ws ∧ r = s := by
  rw [toList_renderAll, toList_renderAll] at h
  have htells : ∀ v ∈ vs, ∀ w ∈ ws, Tells chars v w := fun v hv' w hw' =>
    tells_of_legible v (hv v hv') w (hw w hw')
  exact row_append_inj htells (fun v hv' => begins_chars (legible_iff.mp (hv v hv')).1)
    (fun w hw' => begins_chars (legible_iff.mp (hw w hw')).1) hr hs h

/-- Values without floats and empty sets are told by their literal forms. -/
theorem literal_identifies {a b : Value} (ha : a.Legible) (hb : b.Legible) :
    a.render = b.render ↔ a = b := by
  refine ⟨fun h => ?_, fun h => congrArg render h⟩
  have hchars : a.chars ++ [] = b.chars ++ [] := by
    rw [String.ofList_injective h]
  exact (tells_of_legible a ha b hb [] [] stops_nil stops_nil hchars).1

/-- The empty set and the empty mapping have one literal form. -/
example : (set []).render = (map []).render := rfl

namespace Crate

/-- One label that looks like two. -/
def joined : Value := .map [(.tuple [.str "a\", \"b"], .set [.int (-1)])]

def apart : Value := .map [(.tuple [.str "a", .str "b"], .set [.int (-1)])]

theorem legible_of_parts {v : Value} (h : v.HasForm) (hcontent : v.content = []) : v.Legible := by
  rw [legible_iff, hcontent]
  exact ⟨h, List.forall_mem_nil _⟩

theorem legible_crate {labels : List Value} (h : ∀ v ∈ labels, v.Legible) :
    (map [(tuple labels, set [int (-1)])]).Legible := by
  have hset : (set [int (-1)]).Legible :=
    legible_iff.mpr ⟨List.cons_ne_nil _ _,
      List.forall_mem_singleton.mpr (legible_of_parts trivial rfl)⟩
  have htuple : (tuple labels).Legible := legible_iff.mpr ⟨trivial, h⟩
  refine legible_iff.mpr ⟨trivial, fun v hv => ?_⟩
  rcases List.mem_pair.mp hv with rfl | rfl
  · exact htuple
  · exact hset

theorem legible_joined : joined.Legible :=
  legible_crate (List.forall_mem_singleton.mpr (legible_of_parts trivial rfl))

theorem legible_apart : apart.Legible := by
  refine legible_crate fun v hv => ?_
  rcases List.mem_pair.mp hv with rfl | rfl <;> exact legible_of_parts trivial rfl

end Crate

theorem literal_identifies_crate :
    (Crate.joined.Legible ∧ Crate.apart.Legible) ∧
    Crate.joined.render = "\x7b(\"a\\\", \\\"b\",): \x7b-1\x7d\x7d" ∧
    Crate.apart.render = "\x7b(\"a\", \"b\"): \x7b-1\x7d\x7d" ∧
    Crate.joined.render ≠ Crate.apart.render := by
  have hne : Crate.joined ≠ Crate.apart := by decide
  refine ⟨⟨Crate.legible_joined, Crate.legible_apart⟩, by decide, by decide, ?_⟩
  exact mt (literal_identifies Crate.legible_joined Crate.legible_apart).mp hne

end Conformance.Value
