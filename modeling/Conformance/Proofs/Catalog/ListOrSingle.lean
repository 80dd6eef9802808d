import Conformance.Catalog
import Conformance.Proofs.Spec.Pointwise
import Conformance.Proofs.Union.Ownership

/-! # A list, or a single value in its place

A collection of values of a kind is taken as the list of its elements, and a single value of the
kind as a list of its own. Collections are asked for their elements first. One that has an element
of another kind is refused with a verdict on that element, which is no mismatch, and so it is never
asked whether the collection is a value of the kind itself.
-/

namespace Conformance.Catalog

/-- The kinds that collections are of, however their elements are. -/
def collectionKinds : List Kind := [.list, .tuple, .set, .sequence, .iterable]

/-- The list that is promised for a value of a kind, or for a collection of such values. -/
def promised? (k : Kind) (v : Value) : Option Value :=
  match v.elements? with
  | some items =>
    if items.all k.includes then some (.list items)
    else if k.includes v then some (.list [v]) else none
  | none => if k.includes v then some (.list [v]) else none

/-- What is promised is given, and where nothing is promised the value is refused. -/
def Keeps (k : Kind) (v : Value) (result : Outcome Value) : Prop :=
  match promised? k v with
  | some w => result = .ok w
  | none => ∃ e, result = .invalid e

/-- One failure for each element of another kind, at the index of the element. -/
def strays (k : Kind) (items : List Value) : List Failure :=
  items.zipIdx.filterMap fun (x, i) =>
    if k.includes x then none
    else some (.caused (some (.index i)) ("Index " ++ toString i ++ " is invalid")
      (.mismatch ("Must be " ++ k.name)))

/-- A value of a kind that is a collection with an element of another kind. -/
structure Overruled (k : Kind) (v : Value) : Prop where
  included : k.includes v = true
  stray : ∃ items, v.elements? = some items ∧ ∃ x ∈ items, k.includes x = false

structure ListOrSingle (k : Kind) (v : Value) (result : Outcome Value) : Prop where
  many : ∀ items, v.elements? = some items → (∀ x ∈ items, k.includes x = true) →
    result = .ok (.list items)
  mixed : ∀ items, v.elements? = some items → (∃ x ∈ items, k.includes x = false) →
    result = .invalid (.ofFailures "Items do not conform with iterable spec" (strays k items))
  single : v.elements? = none → k.includes v = true → result = .ok (.list [v])
  neither : v.elements? = none → k.includes v = false →
    result = .invalid (.mismatch ("Must be one of: list, " ++ k.name))

section Kinds

variable {k : Kind} {v : Value} {items : List Value} {result : Outcome Value}

theorem forall_included_or_stray (k : Kind) (items : List Value) :
    (∀ x ∈ items, k.includes x = true) ∨ ∃ x ∈ items, k.includes x = false := by
  by_cases h : ∃ x ∈ items, k.includes x = false
  · exact .inr h
  · refine .inl fun x hx => ?_
    by_contra hk
    exact h ⟨x, hx, Bool.eq_false_iff.mpr hk⟩

/-- A collection is of kinds of collections only, but for the kind of all values. -/
theorem eq_any_or_mem_collectionKinds (h : v.elements? = some items)
    (included : k.includes v = true) : k = .any ∨ k ∈ collectionKinds := by
  rcases Value.elements_eq_some_iff.mp h with rfl | rfl | rfl <;> cases k <;>
    first | decide | cases included

theorem Overruled.mem_collectionKinds (h : Overruled k v) : k ∈ collectionKinds := by
  obtain ⟨included, items, hitems, x, -, hx⟩ := h
  rcases eq_any_or_mem_collectionKinds hitems included with rfl | hk
  · exact absurd hx (by simp [Kind.includes])
  · exact hk

/-- Each of these kinds has a collection of one number. -/
theorem exists_overruled (h : k ∈ collectionKinds) : ∃ v, Overruled k v := by
  have hstray : ∃ x ∈ [Value.int 0], k.includes x = false := by
    refine ⟨_, List.mem_cons_self, ?_⟩
    cases k <;> first | rfl | exact absurd h (by decide)
  cases k with
  | list => exact ⟨.list [.int 0], rfl, _, rfl, hstray⟩
  | tuple => exact ⟨.tuple [.int 0], rfl, _, rfl, hstray⟩
  | set => exact ⟨.set [.int 0], rfl, _, rfl, hstray⟩
  | sequence => exact ⟨.list [.int 0], rfl, _, rfl, hstray⟩
  | iterable => exact ⟨.list [.int 0], rfl, _, rfl, hstray⟩
  | _ => exact absurd h (by decide)

theorem not_overruled_of_elements (h : v.elements? = some items)
    (included : ∀ x ∈ items, k.includes x = true) : ¬ Overruled k v := by
  rintro ⟨-, items', hitems, x, hx, hstray⟩
  obtain rfl := Option.some.inj (h.symm.trans hitems)
  exact Bool.false_ne_true (hstray.symm.trans (included x hx))

theorem not_overruled_of_no_elements (h : v.elements? = none) : ¬ Overruled k v := by
  rintro ⟨-, items, hitems, -⟩
  rw [h] at hitems
  cases hitems

/-- The promise is broken just where a verdict on an element overrules the kind of the value. -/
theorem ListOrSingle.keeps_iff (h : ListOrSingle k v result) :
    Keeps k v result ↔ ¬ Overruled k v := by
  rw [Keeps, promised?]
  cases helements : v.elements? with
  | none =>
    refine iff_of_true ?_ (not_overruled_of_no_elements helements)
    cases hk : k.includes v with
    | true => exact h.single helements hk
    | false => exact ⟨_, h.neither helements hk⟩
  | some items =>
    rcases forall_included_or_stray k items with hall | hstray
    · refine iff_of_true ?_ (not_overruled_of_elements helements hall)
      simp only [List.all_eq_true.mpr hall, if_true]
      exact h.many items helements hall
    · have hany : items.all k.includes = false := by
        obtain ⟨x, hx, hk⟩ := hstray
        exact List.all_eq_false.mpr ⟨x, hx, Bool.eq_false_iff.mp hk⟩
      have hresult := h.mixed items helements hstray
      simp only [hany, Bool.false_eq_true, if_false]
      cases hk : k.includes v with
      | true =>
        have hoverruled : Overruled k v := ⟨hk, items, helements, hstray⟩
        refine iff_of_false ?_ (not_not_intro hoverruled)
        intro hkept
        rw [if_pos rfl, hresult] at hkept
        cases hkept
      | false =>
        have hkept : ¬ Overruled k v := fun ho => Bool.false_ne_true (hk.symm.trans ho.included)
        exact iff_of_true ⟨_, hresult⟩ hkept

end Kinds

/-! ## The two types -/

section Types

variable {l : Label} {k : Kind} {v : Value} {items : List Value}

def many (k : Kind) : Spec :=
  ⟨Options.resolve {} (.value (.list [])) .falsy, .iter [.atom (.kind k)] .list⟩

def single (l : Label) (k : Kind) : Spec := Options.scalar {} (.kind k) ⟨⟨l, wrap⟩, false⟩

theorem listOrSingle_eq (l : Label) (k : Kind) :
    listOrSingle l k = .ok ⟨Options.resolve {} (.value .null) .empty,
      .union [.spec (many k), .spec (single l k)]⟩ :=
  rfl

theorem checkAny_kind (k : Kind) (x : Value) :
    Base.checkAny [.atom (.kind k)] x = (Atom.kind k).check x := by
  have hcheck : (Base.atom (.kind k)).check x = (Atom.kind k).check x := rfl
  rw [Base.checkAny, firstMatch_cons, hcheck, Atom.check]
  cases (Atom.kind k).includes x <;> rfl

theorem check_many (k : Kind) (v : Value) :
    (Base.spec (many k)).check v = (Rule.iter [.atom (.kind k)] .list).check v :=
  Spec.check_of_required rfl rfl fun _ => rfl

theorem isMismatch_many (h : v.elements? = none) :
    ((Base.spec (many k)).check v).isMismatch = true := by
  rw [check_many]
  simp only [Rule.check, h]
  rfl

theorem check_many_of_included (h : v.elements? = some items)
    (included : ∀ x ∈ items, k.includes x = true) :
    (Base.spec (many k)).check v = .ok (.list items) := by
  rw [check_many]
  refine (Rule.pointwise_iter h).collected items ?_
  refine List.forall₂_map_left_iff.mpr (List.forall₂_same.mpr fun x hx => ?_)
  rw [checkAny_kind]
  exact Atom.check_ok_iff.mpr ⟨rfl, included x hx⟩

theorem rejections_kind (k : Kind) (items : List Value) :
    rejections "Index " (items.map (Base.checkAny [.atom (.kind k)])) = strays k items := by
  rw [rejections, strays, List.zipIdx_map, List.filterMap_map]
  refine List.filterMap_congr fun p _ => ?_
  obtain ⟨x, i⟩ := p
  rw [Function.comp_apply, Prod.map_apply, checkAny_kind, Atom.check]
  change rejection? "Index " (if k.includes x then _ else _, i) = if k.includes x then _ else _
  cases k.includes x <;> rfl

theorem check_many_of_stray (h : v.elements? = some items)
    (stray : ∃ x ∈ items, k.includes x = false) :
    (Base.spec (many k)).check v =
      .invalid (.ofFailures "Items do not conform with iterable spec" (strays k items)) := by
  rw [check_many, ← rejections_kind]
  refine (Rule.pointwise_iter h).refused ?_ ?_
  · intro a ha d hd
    obtain ⟨x, -, rfl⟩ := List.mem_map.mp ha
    rw [checkAny_kind, Atom.check] at hd
    split at hd <;> cases hd
  · obtain ⟨x, hx, hk⟩ := stray
    refine ⟨_, List.mem_map_of_mem hx, fun w hw => ?_⟩
    rw [checkAny_kind, Atom.check_ok_iff] at hw
    exact Bool.false_ne_true (hk.symm.trans hw.2)

theorem check_single_of_included (l : Label) (h : k.includes v = true) :
    (Base.spec (single l k)).check v = .ok (.list [v]) := by
  have hkind : (Atom.kind k).includes v = true := h
  exact Spec.check_scalar_of_met (by decide) hkind (List.forall_mem_nil _) _

theorem isMismatch_single (l : Label) (h : k.includes v = false) :
    ((Base.spec (single l k)).check v).isMismatch = true := by
  change ((single l k).check v).isMismatch = true
  have hkind : (Atom.kind k).check v = .invalid (.mismatch (mustBe [k.name])) :=
    if_neg (Bool.eq_false_iff.mp h)
  rw [single, Spec.check_scalar (by decide), hkind]
  rfl

/-- A verdict that is no mismatch keeps a collection from the type of single values. -/
theorem checkAny_of_many (l : Label) (h : ((Base.spec (many k)).check v).isMismatch = false) :
    Base.checkAny [.spec (many k), .spec (single l k)] v = (Base.spec (many k)).check v := by
  have hpassed : ∀ b ∈ ([] : List Base), (b.check v).isMismatch = true := List.forall_mem_nil _
  exact checkAny_of_owner hpassed h

theorem listOrSingle_checkAny (l : Label) (k : Kind) (v : Value) :
    ListOrSingle k v (Base.checkAny [.spec (many k), .spec (single l k)] v) where
  many items h included := by
    have hmany := check_many_of_included h included
    rw [checkAny_of_many l (congrArg Outcome.isMismatch hmany), hmany]
  mixed items h stray := by
    have hmany := check_many_of_stray h stray
    have howns : ((Base.spec (many k)).check v).isMismatch = false := by
      rw [hmany]
      cases strays k items <;> rfl
    rw [checkAny_of_many l howns, hmany]
  single h included := by
    have hsingle := check_single_of_included l included
    have howns := congrArg Outcome.isMismatch hsingle
    have hpassed : ∀ b ∈ [Base.spec (Catalog.many k)], (b.check v).isMismatch = true :=
      List.forall_mem_singleton.mpr (isMismatch_many h)
    exact (checkAny_of_owner hpassed howns).trans hsingle
  neither h excluded := by
    have hmany := isMismatch_many (k := k) h
    have hsingle := isMismatch_single l excluded
    rw [Base.checkAny, firstMatch_cons, if_pos hmany, firstMatch_cons, if_pos hsingle]
    rfl

end Types

/-- Collections of values of a kind give the list of their elements, and other values of the kind a
list of their own. Everything else is refused, and so is a collection that is of the kind while one
of its elements is not, although it is promised a list of its own as well. There are such
collections for the kinds of collections and for no others. -/
theorem check_listOrSingle (l : Label) (k : Kind) :
    ∃ s, listOrSingle l k = .ok s ∧
      (∀ v, ListOrSingle k v (s.check v)) ∧
      (∀ v, Keeps k v (s.check v) ↔ ¬ Overruled k v) ∧
      ((∀ v, Keeps k v (s.check v)) ↔ k ∉ collectionKinds) := by
  refine ⟨_, listOrSingle_eq l k, ?_⟩
  have hanswer : ∀ v, ListOrSingle k v (Spec.check ⟨Options.resolve {} (.value .null) .empty,
      .union [.spec (many k), .spec (single l k)]⟩ v) := by
    intro v
    rw [Spec.check_of_required rfl rfl fun _ => rfl]
    exact listOrSingle_checkAny l k v
  refine ⟨hanswer, fun v => (hanswer v).keeps_iff, ?_⟩
  constructor
  · intro hkeeps hk
    obtain ⟨v, hv⟩ := exists_overruled hk
    exact (hanswer v).keeps_iff.mp (hkeeps v) hv
  · intro hk v
    exact (hanswer v).keeps_iff.mpr fun hv => hk hv.mem_collectionKinds

namespace Ports

def pair : Value := .tuple [.int 80, .int 443]

def named : Value := .tuple [.int 80, .str "https"]

end Ports

/-- One port or a pair of ports, and a pair of which one is no number. -/
theorem check_listOrSingle_ports :
    ∃ s, listOrSingle ⟨[0]⟩ .int = .ok s ∧
      s.check Ports.pair = .ok (.list [.int 80, .int 443]) ∧
      s.check (.int 8080) = .ok (.list [.int 8080]) ∧
      s.check Ports.named =
        .invalid (.ofFailures "Items do not conform with iterable spec"
          [.caused (some (.index 1)) "Index 1 is invalid" (.mismatch "Must be int")]) ∧
      s.check .null = .invalid (.mismatch "Must be one of: list, int") ∧
      ∀ v, Keeps .int v (s.check v) := by
  obtain ⟨s, hs, hanswer, -, hkeeps⟩ := check_listOrSingle ⟨[0]⟩ .int
  have hstray : ∃ x ∈ [Value.int 80, .str "https"], Kind.int.includes x = false :=
    ⟨.str "https", List.mem_cons_of_mem _ List.mem_cons_self, rfl⟩
  exact ⟨s, hs, (hanswer Ports.pair).many _ rfl (List.all_eq_true.mp rfl),
    (hanswer (.int 8080)).single rfl rfl, (hanswer Ports.named).mixed _ rfl hstray,
    (hanswer .null).neither rfl rfl, hkeeps.mpr (by decide)⟩

/-- A list of a number is a list, but not of lists, and a list of it is not given. -/
theorem listOrSingle_overrules :
    ∃ s, listOrSingle ⟨[0]⟩ .list = .ok s ∧
      promised? .list (.list [.int 1]) = some (.list [.list [.int 1]]) ∧
      s.check (.list [.int 1]) =
        .invalid (.ofFailures "Items do not conform with iterable spec"
          [.caused (some (.index 0)) "Index 0 is invalid" (.mismatch "Must be list")]) ∧
      ¬ Keeps .list (.list [.int 1]) (s.check (.list [.int 1])) := by
  refine ⟨_, listOrSingle_eq ⟨[0]⟩ .list, rfl, rfl, ?_⟩
  intro hkept
  have hok : Outcome.invalid _ = Outcome.ok (Value.list [.list [.int 1]]) := hkept
  cases hok

end Conformance.Catalog
