import Conformance.Proofs.Invalid.Leaves
import Conformance.Proofs.Text.Runs

/-! # Places told apart by their paths

A path is read from its left end: an index begins with a bracket, a key after another location with
a point, and a key at the front with neither. Keys that hold no point and no bracket end where the
next location begins. Only an empty key at the front leaves nothing behind, since a path that is
still empty takes the next key without a point.
-/

namespace Conformance

open Text (Stops stops_nil stops_cons)

def pathOf (trail : List Location) : String := trail.foldl joinPath ""

theorem Invalid.map_path_issues (e : Invalid) :
    e.issues.map Issue.path = e.leaves.map fun x => pathOf x.trail := by
  have hissues : e.issues = e.leaves.map (Occurrence.issue "") := e.issuesAt_eq_leaves ""
  rw [hissues, List.map_map]
  rfl

namespace Location

/-- An index, or a textual key in which no other location seems to begin. -/
def IsPlain : Location → Prop
  | .index _ => True
  | .key (.str s) => '.' ∉ s.toList ∧ '[' ∉ s.toList
  | .key _ => False

def isUnnamed (l : Location) : Bool := l == .key (.str "")

def segment : Location → List Char
  | .key (.str s) => '.' :: s.toList
  | l => l.render.toList

theorem isUnnamed_iff {l : Location} : l.isUnnamed = true ↔ l = .key (.str "") := beq_iff_eq

theorem isPlain_cases {l : Location} (h : l.IsPlain) :
    (∃ i, l = .index i) ∨ ∃ s, l = .key (.str s) ∧ '.' ∉ s.toList ∧ '[' ∉ s.toList := by
  cases l with
  | index i => exact .inl ⟨i, rfl⟩
  | key k =>
    cases k with
    | str s => exact .inr ⟨s, rfl, h⟩
    | _ => exact h.elim

theorem toList_render_index (i : Nat) :
    (index i).render.toList = '[' :: (Nat.toDigits 10 i ++ [']']) := by
  rw [render, String.toList_append, String.toList_append, Nat.toString_eq_repr, Nat.toList_repr]
  rfl

theorem segment_index (i : Nat) : (index i).segment = '[' :: (Nat.toDigits 10 i ++ [']']) :=
  toList_render_index i

/-- Behind another location, an index begins with a bracket and a key with a point. -/
theorem exists_segment {l : Location} (plain : l.IsPlain) :
    ∃ c rest, l.segment = c :: rest ∧ (c = '.' ∨ c = '[') := by
  rcases isPlain_cases plain with ⟨i, rfl⟩ | ⟨s, rfl, -⟩
  · exact ⟨'[', _, segment_index i, .inr rfl⟩
  · exact ⟨'.', _, rfl, .inl rfl⟩

end Location

open Location

/-! ## Joining -/

theorem joinPath_empty (l : Location) : joinPath "" l = l.render := by
  cases l with
  | index i => exact String.empty_append
  | key k =>
    cases k with
    | str s => rfl
    | _ => exact String.empty_append

theorem toList_joinPath {path : String} (h : path ≠ "") (l : Location) :
    (joinPath path l).toList = path.toList ++ l.segment := by
  cases l with
  | index i => exact String.toList_append
  | key k =>
    cases k with
    | str s =>
      rw [joinPath, if_neg h, String.toList_append, String.toList_append, List.append_assoc]
      rfl
    | _ => exact String.toList_append

theorem joinPath_ne_empty {path : String} (h : path ≠ "") (l : Location) :
    joinPath path l ≠ "" := by
  intro hjoin
  have hnil : path.toList ++ l.segment = [] := by
    rw [← toList_joinPath h, hjoin]
    rfl
  exact h (String.toList_eq_nil_iff.mp (List.append_eq_nil_iff.mp hnil).1)

theorem toList_foldl_joinPath {path : String} (h : path ≠ "") (trail : List Location) :
    (trail.foldl joinPath path).toList = path.toList ++ trail.flatMap segment := by
  induction trail generalizing path with
  | nil => exact (List.append_nil _).symm
  | cons l rest ih =>
    rw [List.foldl_cons, ih (joinPath_ne_empty h l), toList_joinPath h, List.flatMap_cons,
      List.append_assoc]

theorem render_ne_empty {l : Location} (plain : l.IsPlain) (named : l.isUnnamed = false) :
    l.render ≠ "" := by
  intro hrender
  rcases isPlain_cases plain with ⟨i, rfl⟩ | ⟨s, rfl, -⟩
  · have hchars := toList_render_index i
    rw [hrender] at hchars
    cases hchars
  · have hs : s = "" := hrender
    rw [hs] at named
    exact absurd named (by decide)

theorem toList_pathOf_cons {l : Location} (plain : l.IsPlain) (named : l.isUnnamed = false)
    (rest : List Location) :
    (pathOf (l :: rest)).toList = l.render.toList ++ rest.flatMap segment := by
  rw [pathOf, List.foldl_cons, joinPath_empty]
  exact toList_foldl_joinPath (render_ne_empty plain named) rest

theorem pathOf_ne_empty {l : Location} (plain : l.IsPlain) (named : l.isUnnamed = false)
    (rest : List Location) : pathOf (l :: rest) ≠ "" := by
  intro hempty
  have hchars := toList_pathOf_cons plain named rest
  rw [hempty] at hchars
  have hnil : l.render.toList = [] := (List.append_eq_nil_iff.mp hchars.symm).1
  exact render_ne_empty plain named (String.toList_eq_nil_iff.mp hnil)

/-! ## Locations without a trace -/

/-- What a path shows of a trail. -/
def shown (trail : List Location) : List Location := trail.dropWhile isUnnamed

theorem pathOf_shown (trail : List Location) : pathOf (shown trail) = pathOf trail := by
  induction trail with
  | nil => rfl
  | cons l rest ih =>
    cases hl : l.isUnnamed with
    | false => rw [shown, List.dropWhile_cons_of_neg (Bool.eq_false_iff.mp hl)]
    | true =>
      rw [shown, List.dropWhile_cons_of_pos hl]
      obtain rfl := isUnnamed_iff.mp hl
      exact ih

theorem named_shown {trail : List Location} : ∀ l ∈ (shown trail).head?, l.isUnnamed = false := by
  intro l hl
  have hhead := List.head?_dropWhile_not isUnnamed trail
  rw [shown, Option.mem_def] at hl
  rw [hl] at hhead
  exact hhead

theorem shown_of_named {trail : List Location} (h : trail.head? ≠ some (.key (.str ""))) :
    shown trail = trail := by
  cases trail with
  | nil => rfl
  | cons l rest =>
    have hl : ¬ l.isUnnamed = true := fun hl => h (congrArg some (isUnnamed_iff.mp hl))
    rw [shown, List.dropWhile_cons_of_neg hl]

theorem isPlain_of_shown {trail : List Location} (plain : ∀ l ∈ trail, l.IsPlain) :
    ∀ l ∈ shown trail, l.IsPlain := fun l hl =>
  plain l ((List.dropWhile_sublist isUnnamed).subset hl)

/-! ## Reading a path from its left end -/

/-- No location begins with this character, behind another one. -/
def isInner (c : Char) : Bool := c != '.' && c != '['

theorem isInner_of_mem {s : String} (hpoint : '.' ∉ s.toList) (hbracket : '[' ∉ s.toList) :
    ∀ c ∈ s.toList, isInner c = true := by
  intro c hc
  have hne : c ≠ '.' ∧ c ≠ '[' :=
    ⟨fun h => hpoint (h ▸ hc), fun h => hbracket (h ▸ hc)⟩
  simpa [isInner] using hne

theorem stops_segments {trail : List Location} (plain : ∀ l ∈ trail, l.IsPlain) :
    Stops isInner (trail.flatMap segment) := by
  cases trail with
  | nil => exact stops_nil
  | cons l rest =>
    obtain ⟨c, text, hsegment, hc⟩ := exists_segment (plain l List.mem_cons_self)
    rw [List.flatMap_cons, hsegment, List.cons_append]
    apply stops_cons
    rcases hc with rfl | rfl <;> rfl

variable {r s : List Char}

theorem key_append_inj {a b : String} (ha : (key (.str a)).IsPlain) (hb : (key (.str b)).IsPlain)
    (hr : Stops isInner r) (hs : Stops isInner s) (h : a.toList ++ r = b.toList ++ s) :
    a = b ∧ r = s := by
  obtain ⟨htext, hrest⟩ := Text.run_append_inj (isInner_of_mem ha.1 ha.2)
    (isInner_of_mem hb.1 hb.2) hr hs h
  exact ⟨String.toList_inj.mp htext, hrest⟩

theorem index_append_inj {i j : Nat}
    (h : (index i).render.toList ++ r = (index j).render.toList ++ s) : i = j ∧ r = s := by
  rw [toList_render_index, toList_render_index] at h
  have hdigits : Nat.toDigits 10 i ++ (']' :: r) = Nat.toDigits 10 j ++ (']' :: s) := by
    simpa using h
  obtain ⟨hij, hrest⟩ := Text.decimal_append_inj (stops_cons rfl) (stops_cons rfl) hdigits
  exact ⟨hij, List.tail_eq_of_cons_eq hrest⟩

theorem segment_append_inj {l m : Location} (hl : l.IsPlain) (hm : m.IsPlain)
    (hr : Stops isInner r) (hs : Stops isInner s) (h : l.segment ++ r = m.segment ++ s) :
    l = m ∧ r = s := by
  rcases isPlain_cases hl with ⟨i, rfl⟩ | ⟨a, rfl, -⟩ <;>
    rcases isPlain_cases hm with ⟨j, rfl⟩ | ⟨b, rfl, -⟩
  · obtain ⟨rfl, hrest⟩ := index_append_inj h
    exact ⟨rfl, hrest⟩
  · rw [segment_index] at h
    exact absurd (List.head_eq_of_cons_eq h) (by decide)
  · rw [segment_index] at h
    exact absurd (List.head_eq_of_cons_eq h) (by decide)
  · obtain ⟨rfl, hrest⟩ := key_append_inj hl hm hr hs (List.tail_eq_of_cons_eq h)
    exact ⟨rfl, hrest⟩

/-- A key at the front is no index, since it is not empty and holds no bracket. -/
theorem key_append_ne_index {a : String} {i : Nat} (ha : (key (.str a)).IsPlain)
    (named : (key (.str a)).isUnnamed = false) :
    a.toList ++ r ≠ (index i).render.toList ++ s := by
  intro h
  cases hchars : a.toList with
  | nil =>
    rw [String.toList_eq_nil_iff] at hchars
    rw [hchars] at named
    exact absurd named (by decide)
  | cons c rest =>
    rw [hchars, toList_render_index] at h
    apply ha.2
    rw [hchars, List.head_eq_of_cons_eq h]
    exact List.mem_cons_self

theorem render_append_inj {l m : Location} (hl : l.IsPlain) (hm : m.IsPlain)
    (hl' : l.isUnnamed = false) (hm' : m.isUnnamed = false) (hr : Stops isInner r)
    (hs : Stops isInner s) (h : l.render.toList ++ r = m.render.toList ++ s) :
    l = m ∧ r = s := by
  rcases isPlain_cases hl with ⟨i, rfl⟩ | ⟨a, rfl, -⟩ <;>
    rcases isPlain_cases hm with ⟨j, rfl⟩ | ⟨b, rfl, -⟩
  · obtain ⟨rfl, hrest⟩ := index_append_inj h
    exact ⟨rfl, hrest⟩
  · exact absurd h.symm (key_append_ne_index hm hm')
  · exact absurd h (key_append_ne_index hl hl')
  · obtain ⟨rfl, hrest⟩ := key_append_inj hl hm hr hs h
    exact ⟨rfl, hrest⟩

theorem segments_ne_nil {l : Location} (plain : l.IsPlain) (rest : List Location) :
    (l :: rest).flatMap segment ≠ [] := by
  obtain ⟨c, text, hsegment, -⟩ := exists_segment plain
  rw [List.flatMap_cons, hsegment]
  exact List.cons_ne_nil _ _

theorem segments_inj {xs ys : List Location} (hxs : ∀ l ∈ xs, l.IsPlain)
    (hys : ∀ l ∈ ys, l.IsPlain) (h : xs.flatMap segment = ys.flatMap segment) : xs = ys := by
  induction xs generalizing ys with
  | nil =>
    cases ys with
    | nil => rfl
    | cons m ys => exact absurd h.symm (segments_ne_nil (hys m List.mem_cons_self) ys)
  | cons l xs ih =>
    cases ys with
    | nil => exact absurd h (segments_ne_nil (hxs l List.mem_cons_self) xs)
    | cons m ys =>
      obtain ⟨hl, hxs'⟩ := List.forall_mem_cons.mp hxs
      obtain ⟨hm, hys'⟩ := List.forall_mem_cons.mp hys
      rw [List.flatMap_cons, List.flatMap_cons] at h
      obtain ⟨rfl, hrest⟩ := segment_append_inj hl hm (stops_segments hxs') (stops_segments hys') h
      rw [ih hxs' hys' hrest]

/-- Trails that do not begin with an empty key are told by their paths. -/
theorem eq_of_pathOf {xs ys : List Location} (hxs : ∀ l ∈ xs, l.IsPlain)
    (hys : ∀ l ∈ ys, l.IsPlain) (hx : ∀ l ∈ xs.head?, l.isUnnamed = false)
    (hy : ∀ l ∈ ys.head?, l.isUnnamed = false) (h : pathOf xs = pathOf ys) : xs = ys := by
  cases xs with
  | nil =>
    cases ys with
    | nil => rfl
    | cons m ys =>
      exact absurd h.symm (pathOf_ne_empty (hys m List.mem_cons_self) (hy m rfl) ys)
  | cons l xs =>
    cases ys with
    | nil => exact absurd h (pathOf_ne_empty (hxs l List.mem_cons_self) (hx l rfl) xs)
    | cons m ys =>
      obtain ⟨hl, hxs'⟩ := List.forall_mem_cons.mp hxs
      obtain ⟨hm, hys'⟩ := List.forall_mem_cons.mp hys
      have hchars := congrArg String.toList h
      rw [toList_pathOf_cons hl (hx l rfl), toList_pathOf_cons hm (hy m rfl)] at hchars
      obtain ⟨rfl, hrest⟩ := render_append_inj hl hm (hx l rfl) (hy m rfl) (stops_segments hxs')
        (stops_segments hys') hchars
      rw [segments_inj hxs' hys' hrest]

theorem pathOf_eq_iff {xs ys : List Location} (hxs : ∀ l ∈ xs, l.IsPlain)
    (hys : ∀ l ∈ ys, l.IsPlain) : pathOf xs = pathOf ys ↔ shown xs = shown ys := by
  rw [← pathOf_shown xs, ← pathOf_shown ys]
  refine ⟨fun h => ?_, fun h => congrArg pathOf h⟩
  exact eq_of_pathOf (isPlain_of_shown hxs) (isPlain_of_shown hys) named_shown named_shown h

/-- The paths of the issues of an error are the trails of its leaves, joined. Two trails of indices
and plain keys have one path only if they are the same behind their empty keys at the front; so
paths tell all places that are not below an empty key of the checked value, and what has the path of
the checked value itself lies at empty keys only. -/
theorem paths_tell_places {xs ys : List Location} (hxs : ∀ l ∈ xs, l.IsPlain)
    (hys : ∀ l ∈ ys, l.IsPlain) :
    (∀ e : Invalid, e.issues.map Issue.path = e.leaves.map fun x => pathOf x.trail) ∧
    (pathOf xs = pathOf ys ↔ shown xs = shown ys) ∧
    (xs.head? ≠ some (.key (.str "")) → ys.head? ≠ some (.key (.str "")) →
      (pathOf xs = pathOf ys ↔ xs = ys)) ∧
    (pathOf xs = "" ↔ ∀ l ∈ xs, l = .key (.str "")) := by
  refine ⟨Invalid.map_path_issues, pathOf_eq_iff hxs hys, ?_, ?_⟩
  · intro hx hy
    rw [pathOf_eq_iff hxs hys, shown_of_named hx, shown_of_named hy]
  · have hempty : pathOf xs = "" ↔ shown xs = [] := pathOf_eq_iff hxs (List.forall_mem_nil _)
    rw [hempty, shown, List.dropWhile_eq_nil_iff]
    exact forall₂_congr fun l _ => isUnnamed_iff

/-- A key with a colon and a bracket that closes, below an index. -/
theorem paths_tell_places_bracket :
    (∀ l ∈ [index 12, key (.str "a]:")], l.IsPlain) ∧
    (∀ l ∈ [key (.str "a]:"), index 12], l.IsPlain) ∧
    pathOf [index 12, key (.str "a]:")] = "[12].a]:" ∧
    pathOf [index 12, key (.str "a]:")] ≠ pathOf [key (.str "a]:"), index 12] := by
  have hindex : (index 12).IsPlain := trivial
  have hkey : (key (.str "a]:")).IsPlain := ⟨by decide, by decide⟩
  have hxs : ∀ l ∈ [index 12, key (.str "a]:")], l.IsPlain :=
    List.forall_mem_cons.mpr ⟨hindex, List.forall_mem_singleton.mpr hkey⟩
  have hys : ∀ l ∈ [key (.str "a]:"), index 12], l.IsPlain :=
    List.forall_mem_cons.mpr ⟨hkey, List.forall_mem_singleton.mpr hindex⟩
  obtain ⟨-, -, happart, -⟩ := paths_tell_places hxs hys
  refine ⟨hxs, hys, by decide, ?_⟩
  rw [Ne, happart (by decide) (by decide)]
  decide

/-- The key `a` below an empty key has the path of the key `a`, and an empty key has the path of the
checked value. -/
theorem paths_confuse_places :
    (∀ l ∈ [key (.str ""), key (.str "a")], l.IsPlain) ∧
    pathOf [key (.str ""), key (.str "a")] = pathOf [key (.str "a")] ∧
    pathOf [key (.str "")] = pathOf [] ∧
    (Invalid.aggregate "dict"
      (.caused (some (key (.str ""))) "key"
        (.aggregate "dict" (.leaf (some (key (.str "a"))) "text") []))
      [.leaf (some (key (.str "a"))) "text"]).issues = [⟨"a", "text"⟩, ⟨"a", "text"⟩] := by
  have hempty : (key (.str "")).IsPlain := ⟨by decide, by decide⟩
  have hkey : (key (.str "a")).IsPlain := ⟨by decide, by decide⟩
  refine ⟨List.forall_mem_cons.mpr ⟨hempty, List.forall_mem_singleton.mpr hkey⟩, ?_, ?_, ?_⟩
  · decide
  · decide
  · decide

end Conformance
