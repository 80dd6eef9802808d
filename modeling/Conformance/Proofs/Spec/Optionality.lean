import Conformance.Proofs.Spec.Derivation
import Conformance.Proofs.Union.Flattening

/-! # Optional unions and enumerations

Whether a union or an enumeration is optional is said twice, by its settings and by what it lists.
Every build brings the two into agreement by listing null where the settings ask for it, and by
taking what lists null for optional. Null is never taken off the list, so that nothing that has
become optional is required again.
-/

namespace Conformance

namespace Rule

/-! ## What is listed -/

def IsListing : Rule → Prop
  | .union _ | .enum _ _ => True
  | _ => False

def ListsNull : Rule → Prop
  | .union types => .atom .null ∈ types
  | .enum members _ => .null ∈ members
  | _ => False

/-- Null comes last in a union, and first among the ascending members of an enumeration. -/
inductive AddsNull : Rule → Rule → Prop
  | union {types : List Base} (absent : .atom .null ∉ types) :
      AddsNull (.union types) (.union (types ++ [.atom .null]))
  | enum {members : List Value} {c : Option Canonicalizer} (absent : .null ∉ members) :
      AddsNull (.enum members c) (.enum (.null :: members) c)

/-- The same list, but for null at most. -/
def Extends (r r' : Rule) : Prop := r' = r ∨ AddsNull r r'

variable {r r' r'' : Rule}

theorem AddsNull.not_listsNull (h : AddsNull r r') : ¬ r.ListsNull := by
  cases h with
  | union absent => exact absent
  | enum absent => exact absent

theorem AddsNull.listsNull (h : AddsNull r r') : r'.ListsNull := by
  cases h with
  | union => exact List.mem_append_right _ (List.mem_singleton.mpr rfl)
  | enum => exact List.mem_cons_self

theorem Extends.refl (r : Rule) : Extends r r := .inl rfl

/-- Null is not added a second time. -/
theorem Extends.trans (h : Extends r r') (h' : Extends r' r'') : Extends r r'' := by
  rcases h with rfl | hadds
  · exact h'
  · rcases h' with rfl | hagain
    · exact .inr hadds
    · exact absurd hadds.listsNull hagain.not_listsNull

theorem Extends.listsNull (h : Extends r r') (hr : r.ListsNull) : r' = r := by
  rcases h with rfl | hadds
  · rfl
  · exact absurd hr hadds.not_listsNull

theorem Extends.isListing (h : Extends r r') (hr : r.IsListing) : r'.IsListing := by
  rcases h with rfl | ⟨-⟩ | ⟨-⟩
  · exact hr
  · trivial
  · trivial

/-! ## What a build does to the list -/

theorem insertMember_null {members : List Value} (h : .null ∉ members) :
    Value.insertMember .null members = .null :: members := by
  cases members with
  | nil => rfl
  | cons v rest =>
    have hv : v ≠ .null := fun hv => h (List.mem_cons.mpr (.inl hv.symm))
    cases v <;> first | rfl | exact absurd rfl hv

theorem extends_normalize (ordered : r.Ordered) (settings : Settings) :
    Extends r (r.normalize settings).1 := by
  cases r with
  | enum members c =>
    by_cases hoptional : settings.optional = true
    · by_cases hnull : .null ∈ members
      · have hsame : Value.insertMember .null members = members :=
          (Value.insertMember_eq_self_iff ordered).mpr (Value.mem_iff_compare.mp hnull)
        simp only [normalize, if_pos hoptional, hsame]
        exact .refl _
      · simp only [normalize, if_pos hoptional, insertMember_null hnull]
        exact .inr (.enum hnull)
    · simp only [normalize, if_neg hoptional]
      exact .refl _
  | union types =>
    by_cases hadds : (settings.optional && !types.any Base.isNull) = true
    · have hnull : .atom .null ∉ types := by
        intro hnull
        rw [Base.any_isNull_iff.mpr hnull, Bool.not_true, Bool.and_false] at hadds
        cases hadds
      simp only [normalize, if_pos hadds]
      exact .inr (.union hnull)
    · simp only [normalize, if_neg hadds]
      exact .refl _
  | _ => exact .refl _

/-- Null is listed afterwards just if it was, or if the settings ask for it. -/
theorem listsNull_normalize_iff (listing : r.IsListing) {settings : Settings} :
    (r.normalize settings).1.ListsNull ↔ settings.optional = true ∨ r.ListsNull := by
  cases r with
  | enum members c =>
    by_cases hoptional : settings.optional = true
    · simp [normalize, ListsNull, hoptional, Value.mem_insertMember]
    · simp [normalize, ListsNull, hoptional]
  | union types =>
    by_cases hoptional : settings.optional = true
    · refine iff_of_true ?_ (.inl hoptional)
      by_cases hnull : types.any Base.isNull = true
      · simpa [normalize, ListsNull, hnull] using Base.any_isNull_iff.mp hnull
      · simp [normalize, ListsNull, hoptional, hnull]
    · simp [normalize, ListsNull, hoptional]
  | _ => exact absurd listing id

theorem Agrees.listsNull_iff {optional : Bool} (listing : r.IsListing) (h : r.Agrees optional) :
    optional = true ↔ r.ListsNull := by
  cases r with
  | enum members c =>
    have hoptional : optional = members.contains .null := h
    rw [hoptional]
    exact List.contains_iff_mem
  | union types =>
    have hoptional : optional = types.any Base.isNull := h
    rw [hoptional]
    exact Base.any_isNull_iff
  | _ => exact absurd listing id

end Rule

/-! ## Building and copying -/

namespace Spec

/-- A copy with settings of any other kind, further constraints included. -/
def Copied (s t : Spec) : Prop := ∃ configure, s.derive configure = .ok t

/-- A union or an enumeration that has been built. -/
structure Listing (s : Spec) : Prop where
  listing : s.rule.IsListing
  settled : s.Settled

variable {s t : Spec}

theorem Listing.optional_iff (h : s.Listing) : s.isOptional = true ↔ s.rule.ListsNull :=
  h.settled.agrees.listsNull_iff h.listing

theorem listing_of_assemble {rule : Rule} {settings : Settings} (listing : rule.IsListing)
    (ordered : rule.Ordered) (h : assemble rule settings = .ok t) :
    t.Listing ∧ rule.Extends t.rule ∧
      (t.isOptional = true ↔ settings.optional = true ∨ rule.ListsNull) := by
  have hsettled : t.Settled := settled_of_assemble h ordered
  obtain ⟨rfl, -⟩ := assemble_ok_iff.mp h
  have hextends := Rule.extends_normalize ordered settings
  have hlisting : Listing ⟨(rule.normalize settings).2, (rule.normalize settings).1⟩ :=
    ⟨hextends.isListing listing, hsettled⟩
  exact ⟨hlisting, hextends, hlisting.optional_iff.trans (Rule.listsNull_normalize_iff listing)⟩

/-- One copy lists null at most in addition, and is optional if it is asked to be or has been. -/
theorem Listing.derive {configure : Options → Options} (hs : s.Listing)
    (h : s.derive configure = .ok t) :
    t.Listing ∧ s.rule.Extends t.rule ∧
      (t.isOptional = true ↔
        (configure (.ofSettings s.settings)).optional = some true ∨ s.isOptional = true) := by
  obtain ⟨hlisting, hextends, hoptional⟩ := listing_of_assemble hs.listing hs.settled.ordered h
  refine ⟨hlisting, hextends, ?_⟩
  rw [hoptional, Options.resolve_optional_iff, hs.optional_iff]

/-- However many copies are made, null is added once at most. -/
theorem Listing.copies (hs : s.Listing) (h : Relation.ReflTransGen Copied s t) :
    t.Listing ∧ s.rule.Extends t.rule := by
  induction h with
  | refl => exact ⟨hs, .refl _⟩
  | tail _ hcopy ih =>
    obtain ⟨configure, hcopy⟩ := hcopy
    obtain ⟨hlisting, hextends, -⟩ := ih.1.derive hcopy
    exact ⟨hlisting, ih.2.trans hextends⟩

end Spec

/-- A union or an enumeration built with some options, beside the list that has been declared. -/
inductive Schema.Lists (o : Options) : Rule → Spec → Prop
  | union {types : List Descriptor} {bases : List Base} {s : Spec} :
      toBases types = .ok bases → Schema.union types o = .ok s → Lists o (.union bases) s
  | enum {values : List Value} {c : Option (Callback (Value → Except CanonFault Value))}
      {s : Spec} :
      Schema.enum values c o = .ok s →
      Lists o (.enum (Value.members values) (c.map (⟨·, false⟩))) s

theorem Schema.Lists.assemble {o : Options} {declared : Rule} {s : Spec}
    (h : Schema.Lists o declared s) :
    declared.IsListing ∧ declared.Ordered ∧
      ∃ d u, Spec.assemble declared (o.resolve d u) = .ok s := by
  cases h with
  | union hbases hs =>
    rw [Schema.union, hbases] at hs
    exact ⟨trivial, trivial, _, _, hs⟩
  | @enum values c _ hs => exact ⟨trivial, Value.ascending_members values, _, _, hs⟩

/-- Whatever options a union or an enumeration is built with, and whatever settings its copies are
given one after the other, each of them is optional just if it lists null. Copies list what has been
listed before, and null in addition if that is asked for and is not listed yet. -/
theorem optional_iff_listsNull {o : Options} {declared : Rule} {s t : Spec}
    (built : Schema.Lists o declared s) (copies : Relation.ReflTransGen Spec.Copied s t) :
    (t.isOptional = true ↔ t.rule.ListsNull) ∧
    (s.isOptional = true ↔ o.optional = some true ∨ declared.ListsNull) ∧
    declared.Extends s.rule ∧ s.rule.Extends t.rule ∧ declared.Extends t.rule ∧
    (s.isOptional = true → t.isOptional = true) ∧
    ∀ configure u, t.derive configure = .ok u →
      t.rule.Extends u.rule ∧
      (u.isOptional = true ↔
        (configure (.ofSettings t.settings)).optional = some true ∨ t.isOptional = true) := by
  obtain ⟨hdeclared, hordered, d, u, hassemble⟩ := built.assemble
  obtain ⟨hs, hfirst, hoptional⟩ := Spec.listing_of_assemble hdeclared hordered hassemble
  obtain ⟨ht, hrun⟩ := hs.copies copies
  rw [Options.resolve_optional_iff] at hoptional
  refine ⟨ht.optional_iff, hoptional, hfirst, hrun, hfirst.trans hrun, ?_, ?_⟩
  · intro h
    have hnull : s.rule.ListsNull := hs.optional_iff.mp h
    exact ht.optional_iff.mpr (hrun.listsNull hnull ▸ hnull)
  · intro configure u hu
    exact (ht.derive hu).2

namespace Timeout

def seconds : Spec := ⟨⟨false, .value .null, .empty, []⟩, .union [.atom (.kind .int)]⟩

def withOptional (optional : Bool) (o : Options) : Options := { o with optional := some optional }

end Timeout

/-- A copy that is optional lists null, and a copy of the copy that is to be required keeps it. -/
theorem optional_iff_listsNull_timeout :
    ∃ t u, Timeout.seconds.derive (Timeout.withOptional true) = .ok t ∧
      t.derive (Timeout.withOptional false) = .ok u ∧
      Timeout.seconds.isOptional = false ∧ u.isOptional = true ∧ u.rule.ListsNull ∧
      Timeout.seconds.rule.Extends u.rule ∧ u.rule = .union [.atom (.kind .int), .atom .null] := by
  have hbuilt : Schema.Lists {} (.union [.atom (.kind .int)]) Timeout.seconds :=
    @Schema.Lists.union {} [.atom (.kind .int)] _ _ rfl rfl
  obtain ⟨t, ht⟩ : ∃ t, Timeout.seconds.derive (Timeout.withOptional true) = .ok t := ⟨_, rfl⟩
  obtain ⟨u, hu⟩ : ∃ u, t.derive (Timeout.withOptional false) = .ok u := by
    cases ht
    exact ⟨_, rfl⟩
  have hcopies : Relation.ReflTransGen Spec.Copied Timeout.seconds u :=
    .tail (.single ⟨_, ht⟩) ⟨_, hu⟩
  obtain ⟨hoptional, -, -, hextends, -, -, -⟩ := optional_iff_listsNull hbuilt hcopies
  have hmembers : u.rule = .union [.atom (.kind .int), .atom .null] := by
    cases ht
    cases hu
    rfl
  have hnull : u.rule.ListsNull := by
    rw [hmembers]
    exact List.mem_cons_of_mem _ List.mem_cons_self
  exact ⟨t, u, ht, hu, rfl, hoptional.mpr hnull, hnull, hextends, hmembers⟩

end Conformance
