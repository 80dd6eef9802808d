import Conformance.Proofs.Address.Groups
import Conformance.Proofs.Address.Quads

/-! # Addresses of version 6 as texts

Groups stand between colons, and a double colon stands for the groups of zero that are left out. The
last two groups may be written as an address of version 4. What a text denotes is told by its
shape; that the reader agrees makes it a function.
-/

namespace Conformance.Address.V6

/-- Groups between colons. Only at the end of the address one of version 4 may stand. -/
inductive Row (atEnd : Bool) : List Char → List UInt16 → Prop
  | group {cs g} : Group cs g → Row atEnd cs [g]
  | quad {cs x} : atEnd = true → V4.Denotes cs x → Row atEnd cs (ofV4 x)
  | cons {cs g rest gs} : Group cs g → Row atEnd rest gs →
      Row atEnd (cs ++ ':' :: rest) (g :: gs)

/-- What stands on one side of a double colon. -/
inductive Part (atEnd : Bool) : List Char → List UInt16 → Prop
  | empty : Part atEnd [] []
  | row {cs gs} : Row atEnd cs gs → Part atEnd cs gs

/-- The texts of an address. A double colon stands for one group of zero or more. -/
inductive Denotes : List Char → V6 → Prop
  | full {cs x} : Row true cs x.groups → Denotes cs x
  | gap {front back x gs hs n} : Part false front gs → Part true back hs →
      x.groups = gs ++ List.replicate (n + 1) 0 ++ hs → Denotes (front ++ ':' :: ':' :: back) x

/-! ## Between colons -/

section Rows

variable {atEnd : Bool} {c : Char} {cs : List Char} {g : UInt16} {gs : List UInt16} {x : V4}

theorem Group.not_mem (h : Group cs g) (hc : ∀ d < 16, c.toLower ≠ d.digitChar) : c ∉ cs := by
  intro hmem
  obtain ⟨k, hk⟩ := h.chars
  have hlower : c.toLower ∈ List.replicate k '0' ++ groupChars g := hk ▸ List.mem_map_of_mem hmem
  rcases List.mem_append.mp hlower with hzero | hdigit
  · exact hc 0 (by omega) (List.eq_of_mem_replicate hzero)
  · obtain ⟨d, hd, heq⟩ := Text.exists_of_mem_toDigits (by omega) hdigit
    exact hc d hd heq

theorem Group.colon_not_mem (h : Group cs g) : ':' ∉ cs := h.not_mem (by decide)

theorem Group.point_not_mem (h : Group cs g) : '.' ∉ cs := h.not_mem (by decide)

/-- The points of an address of version 4 keep it from being a group. -/
theorem group?_quad (x : V4) : group? x.chars = none := by
  rw [Option.eq_none_iff_forall_ne_some]
  intro g hg
  have hpoint : '.' ∈ x.chars := by simp [V4.chars]
  exact (group?_eq_some_iff.mp hg).point_not_mem hpoint

theorem lastGroups?_eq_some_iff : lastGroups? cs = some gs ↔
    (∃ g, Group cs g ∧ gs = [g]) ∨ ∃ x, V4.Denotes cs x ∧ gs = ofV4 x := by
  rw [lastGroups?]
  constructor
  · intro h
    split at h
    · next g hg => exact .inl ⟨g, group?_eq_some_iff.mp hg, (Option.some.inj h).symm⟩
    · obtain ⟨x, hx, rfl⟩ := Option.map_eq_some_iff.mp h
      exact .inr ⟨x, V4.read?_eq_some_iff.mp hx, rfl⟩
  · rintro (⟨g, hg, rfl⟩ | ⟨x, hx, rfl⟩)
    · rw [group?_eq_some_iff.mpr hg]
    · rw [V4.denotes_iff.mp hx, group?_quad, V4.read?_chars]
      rfl

theorem groups?_singleton : groups? atEnd [cs] = some gs ↔
    (∃ g, Group cs g ∧ gs = [g]) ∨ (atEnd = true ∧ ∃ x, V4.Denotes cs x ∧ gs = ofV4 x) := by
  cases atEnd with
  | true => simp [groups?, lastGroups?_eq_some_iff]
  | false => simp [groups?, group?_eq_some_iff, @eq_comm _ gs]

theorem groups?_cons {rest : List (List Char)} (hne : rest ≠ []) :
    groups? atEnd (cs :: rest) = some gs ↔
      ∃ g hs, Group cs g ∧ groups? atEnd rest = some hs ∧ gs = g :: hs := by
  rw [groups?.eq_3 _ _ _ hne]
  simp [Option.bind_eq_some_iff, group?_eq_some_iff, @eq_comm _ gs]

theorem row_of_groups? {pieces : List (List Char)} (hne : pieces ≠ [])
    (h : groups? atEnd pieces = some gs) : Row atEnd ([':'].intercalate pieces) gs := by
  induction pieces generalizing gs with
  | nil => exact absurd rfl hne
  | cons cs rest ih =>
    cases rest with
    | nil =>
      rw [List.intercalate_singleton]
      rcases groups?_singleton.mp h with ⟨g, hg, rfl⟩ | ⟨hend, x, hx, rfl⟩
      · exact .group hg
      · exact .quad hend hx
    | cons ds rest =>
      obtain ⟨g, hs, hg, hrest, rfl⟩ := (groups?_cons (List.cons_ne_nil _ _)).mp h
      rw [List.intercalate_cons_cons]
      simpa using Row.cons hg (ih (List.cons_ne_nil _ _) hrest)

theorem groups?_splitOn_iff : groups? atEnd (cs.splitOn ':') = some gs ↔ Row atEnd cs gs := by
  constructor
  · intro h
    have hrow := row_of_groups? (List.splitOn_ne_nil _ _) h
    rwa [List.intercalate_splitOn] at hrow
  · intro h
    induction h with
    | group hg =>
      rw [List.splitOn_eq_singleton hg.colon_not_mem]
      exact groups?_singleton.mpr (.inl ⟨_, hg, rfl⟩)
    | quad hend hx =>
      rw [List.splitOn_eq_singleton (hx.colon_not_mem)]
      exact groups?_singleton.mpr (.inr ⟨hend, _, hx, rfl⟩)
    | cons hg _ ih =>
      rw [List.splitOn_append_cons_self_of_not_mem hg.colon_not_mem]
      exact (groups?_cons (List.splitOn_ne_nil _ _)).mpr ⟨_, _, hg, ih, rfl⟩

theorem exists_cons_of_colon_not_mem (hne : cs ≠ []) (hcolon : ':' ∉ cs) :
    ∃ c rest, cs = c :: rest ∧ c ≠ ':' := by
  obtain ⟨c, rest, rfl⟩ := List.exists_cons_of_ne_nil hne
  exact ⟨c, rest, rfl, fun hc => hcolon (hc ▸ List.mem_cons_self)⟩

/-- No row is empty or begins with a colon. -/
theorem Row.exists_cons (h : Row atEnd cs gs) : ∃ c rest, cs = c :: rest ∧ c ≠ ':' := by
  cases h with
  | group hg => exact exists_cons_of_colon_not_mem hg.ne_nil hg.colon_not_mem
  | quad _ hx => exact exists_cons_of_colon_not_mem hx.ne_nil hx.colon_not_mem
  | cons hg _ =>
    obtain ⟨c, rest, rfl, hc⟩ := exists_cons_of_colon_not_mem hg.ne_nil hg.colon_not_mem
    exact ⟨c, _, rfl, hc⟩

theorem Part.row_of_ne_nil (h : Part atEnd cs gs) (hne : gs ≠ []) : Row atEnd cs gs := by
  cases h with
  | empty => exact absurd rfl hne
  | row hrow => exact hrow

theorem part?_eq_some_iff : part? atEnd cs = some gs ↔ Part atEnd cs gs := by
  rw [part?]
  constructor
  · intro h
    split at h
    · next hnil =>
      cases h
      rw [List.isEmpty_iff.mp hnil]
      exact .empty
    · exact .row (groups?_splitOn_iff.mp h)
  · intro h
    cases h with
    | empty => rfl
    | row hrow =>
      obtain ⟨c, rest, rfl, -⟩ := hrow.exists_cons
      exact groups?_splitOn_iff.mpr hrow

end Rows

/-! ## Around a double colon -/

section Gaps

variable {atEnd : Bool} {cs tail before after : List Char} {gs : List UInt16} {x : V6}

theorem eq_of_splitGap (h : splitGap cs = some (before, after)) :
    cs = before ++ ':' :: ':' :: after := by
  induction cs using splitGap.induct generalizing before with
  | case1 rest =>
    cases h
    rfl
  | case2 c rest hgap ih =>
    rw [splitGap.eq_2 _ _ hgap] at h
    obtain ⟨⟨front, back⟩, hfront, hboth⟩ := Option.map_eq_some_iff.mp h
    cases hboth
    rw [ih hfront]
    rfl
  | case3 => cases h

theorem splitGap_cons {c : Char} {rest : List Char} (h : c = ':' → rest.head? ≠ some ':') :
    splitGap (c :: rest) = (splitGap rest).map fun p => (c :: p.1, p.2) := by
  refine splitGap.eq_2 _ _ fun rest' hc hrest => ?_
  subst hrest
  exact h hc rfl

theorem splitGap_append (h : ':' ∉ cs) :
    splitGap (cs ++ tail) = (splitGap tail).map fun p => (cs ++ p.1, p.2) := by
  induction cs with
  | nil => exact Option.map_id'.symm
  | cons c rest ih =>
    obtain ⟨hc, hrest⟩ := not_or.mp (mt List.mem_cons.mpr h)
    rw [List.cons_append, splitGap_cons fun hcolon => absurd hcolon.symm hc, ih hrest,
      Option.map_map]
    rfl

/-- No double colon begins within a row. -/
theorem Row.splitGap_append (h : Row atEnd cs gs) (tail : List Char) :
    splitGap (cs ++ tail) = (splitGap tail).map fun p => (cs ++ p.1, p.2) := by
  induction h with
  | group hg => exact V6.splitGap_append hg.colon_not_mem
  | quad _ hx => exact V6.splitGap_append hx.colon_not_mem
  | cons hg hrest ih =>
    -- The colon between two groups is a single one, because a group comes after it.
    obtain ⟨c, rest, rfl, hc⟩ := hrest.exists_cons
    have hhead : (c :: rest ++ tail).head? ≠ some ':' := fun hcolon => hc (Option.some.inj hcolon)
    rw [List.append_assoc, V6.splitGap_append hg.colon_not_mem, List.cons_append,
      splitGap_cons fun _ => hhead, ih, Option.map_map, Option.map_map]
    simp [Function.comp_def]

theorem Row.splitGap_eq_none (h : Row atEnd cs gs) : splitGap cs = none := by
  have happend := h.splitGap_append []
  rwa [List.append_nil] at happend

theorem Part.splitGap_eq_some (h : Part atEnd cs gs) :
    splitGap (cs ++ ':' :: ':' :: after) = some (cs, after) := by
  cases h with
  | empty => rfl
  | row hrow =>
    rw [hrow.splitGap_append]
    simp [splitGap]

theorem ofGroups?_eq_some_iff : ofGroups? gs = some x ↔ x.groups = gs := by
  rw [ofGroups?]
  constructor
  · intro h
    split at h
    · cases h
      rfl
    · cases h
  · rintro rfl
    rw [dif_pos x.length_groups]

theorem groups_ne_nil (x : V6) : x.groups ≠ [] :=
  List.ne_nil_of_length_eq_add_one x.length_groups

/-- The reader takes the texts of addresses and nothing else. -/
theorem read?_eq_some_iff : read? cs = some x ↔ Denotes cs x := by
  constructor
  · intro h
    rw [read?] at h
    split at h
    · next hgap =>
      obtain ⟨gs, hpart, hx⟩ := Option.bind_eq_some_iff.mp h
      rw [← ofGroups?_eq_some_iff.mp hx] at hpart
      exact .full (Part.row_of_ne_nil (part?_eq_some_iff.mp hpart) x.groups_ne_nil)
    · next before after hgap =>
      simp only [Option.bind_eq_bind, Option.bind_eq_some_iff, part?_eq_some_iff] at h
      obtain ⟨gs, hfront, hs, hback, h⟩ := h
      split at h
      · next hle =>
        rw [eq_of_splitGap hgap]
        have hlength : 8 - gs.length - hs.length = 8 - gs.length - hs.length - 1 + 1 := by omega
        rw [hlength] at h
        exact .gap hfront hback (ofGroups?_eq_some_iff.mp h)
      · cases h
  · intro h
    rw [read?]
    cases h with
    | full hrow =>
      have hpart : part? true cs = some x.groups := part?_eq_some_iff.mpr (.row hrow)
      rw [hrow.splitGap_eq_none]
      exact Option.bind_eq_some_iff.mpr ⟨_, hpart, ofGroups?_eq_some_iff.mpr rfl⟩
    | gap hfront hback hx =>
      next gs hs n =>
      have hlength := x.length_groups
      rw [hx, List.length_append, List.length_append, List.length_replicate] at hlength
      have hcount : 8 - gs.length - hs.length = n + 1 := by omega
      have hle : gs.length + hs.length ≤ 7 := by omega
      simp only [hfront.splitGap_eq_some, part?_eq_some_iff.mpr hfront, part?_eq_some_iff.mpr hback,
        Option.bind_eq_bind, Option.bind_some, if_pos hle, hcount]
      exact ofGroups?_eq_some_iff.mpr hx

end Gaps

end Conformance.Address.V6
