import Conformance.Address.V6
import Conformance.Proofs.Text.Runs

/-! # Groups of hexadecimal digits -/

namespace Conformance.Address.V6

/-- Up to four digits that denote a group. Zeros may stand in front, and letters may be capital. -/
structure Group (cs : List Char) (g : UInt16) : Prop where
  length_le : cs.length ≤ 4
  chars : ∃ k, cs.map Char.toLower = List.replicate k '0' ++ groupChars g

section Digits

variable {c : Char} {d : Nat} {cs : List Char} {ds : List Nat}

theorem toNat_toLower (c : Char) :
    c.toLower.toNat = if 65 ≤ c.toNat ∧ c.toNat ≤ 90 then c.toNat + 32 else c.toNat := by
  have hwrap : (c.val + ('a'.val - 'A'.val)).toNat = (c.toNat + 32) % 2 ^ 32 :=
    UInt32.toNat_add _ _
  unfold Char.toLower
  split
  · next h =>
    have hcapital : 65 ≤ c.toNat ∧ c.toNat ≤ 90 := h
    rw [if_pos hcapital, Char.toNat, hwrap]
    omega
  · next h =>
    have hother : ¬ (65 ≤ c.toNat ∧ c.toNat ≤ 90) := h
    rw [if_neg hother]

theorem toNat_digitChar : ∀ d < 16, d.digitChar.toNat = if d < 10 then d + 48 else d + 87 := by
  decide

theorem hexValue?_eq (c : Char) : hexValue? c =
    if 48 ≤ c.toNat ∧ c.toNat ≤ 57 then some (c.toNat - 48)
    else if 97 ≤ c.toNat ∧ c.toNat ≤ 102 then some (c.toNat - 97 + 10)
    else if 65 ≤ c.toNat ∧ c.toNat ≤ 70 then some (c.toNat - 65 + 10)
    else none := by
  simp only [hexValue?, Decimal.isAsciiDigit, Bool.and_eq_true, decide_eq_true_eq]
  rfl

theorem hexValue?_eq_some_iff : hexValue? c = some d ↔ d < 16 ∧ c.toLower = d.digitChar := by
  rw [hexValue?_eq, ← Char.toNat_inj, toNat_toLower]
  by_cases hd : d < 16
  · rw [toNat_digitChar d hd]
    split_ifs <;> grind
  · split_ifs <;> grind

theorem mapM_hexValue?_eq_some_iff : cs.mapM hexValue? = some ds ↔
    (∀ d ∈ ds, d < 16) ∧ cs.map Char.toLower = ds.map Nat.digitChar := by
  induction cs generalizing ds with
  | nil =>
    cases ds <;> simp
  | cons c rest ih =>
    rw [List.mapM_cons, Option.bind_eq_bind, Option.bind_eq_some_iff]
    simp only [Option.bind_eq_bind, Option.bind_eq_some_iff, ih, hexValue?_eq_some_iff]
    constructor
    · rintro ⟨d, ⟨hd, hc⟩, ds, ⟨hds, hrest⟩, hcons⟩
      cases hcons
      refine ⟨List.forall_mem_cons.mpr ⟨hd, hds⟩, ?_⟩
      rw [List.map_cons, List.map_cons, hc, hrest]
    · rintro ⟨hds, hmap⟩
      cases ds with
      | nil => cases hmap
      | cons d ds =>
        obtain ⟨hd, hds⟩ := List.forall_mem_cons.mp hds
        obtain ⟨hc, hrest⟩ := List.cons.inj hmap
        exact ⟨d, ⟨hd, hc⟩, ds, ⟨hds, hrest⟩, rfl⟩

/-- A row of digits is that of its number, but for the zeros in front. -/
theorem exists_zeros (hne : ds ≠ []) (hds : ∀ d ∈ ds, d < 16) :
    ∃ k, ds.map Nat.digitChar =
      List.replicate k '0' ++ Nat.toDigits 16 (ds.foldl (fun n d => 16 * n + d) 0) := by
  induction ds with
  | nil => exact absurd rfl hne
  | cons d rest ih =>
    obtain ⟨hd, hrest⟩ := List.forall_mem_cons.mp hds
    by_cases hzero : d = 0
    · subst hzero
      by_cases hlast : rest = []
      · subst hlast
        exact ⟨0, rfl⟩
      · obtain ⟨k, hk⟩ := ih hlast hrest
        refine ⟨k + 1, ?_⟩
        rw [List.map_cons, hk]
        rfl
    · have hstart : 16 * 0 + d = d := by omega
      refine ⟨0, ?_⟩
      rw [List.foldl_cons, hstart, Text.toDigits_foldl (by omega) (by omega) hrest,
        Nat.toDigits_of_lt_base hd]
      rfl

theorem foldl_zeros (k : Nat) (ds : List Nat) :
    (List.replicate k 0 ++ ds).foldl (fun n d => 16 * n + d) 0 =
      ds.foldl (fun n d => 16 * n + d) 0 := by
  induction k with
  | zero => rfl
  | succ k ih => exact ih

end Digits

section Groups

variable {cs : List Char} {g : UInt16}

theorem groupChars_ne_nil (g : UInt16) : groupChars g ≠ [] := Nat.toDigits_ne_nil

theorem Group.ne_nil (h : Group cs g) : cs ≠ [] := by
  rintro rfl
  obtain ⟨k, hk⟩ := h.chars
  exact groupChars_ne_nil g (List.append_eq_nil_iff.mp hk.symm).2

theorem length_groupChars (g : UInt16) : (groupChars g).length ≤ 4 := by
  have hlt : g.toNat < 16 ^ 4 := g.toNat_lt
  exact (Nat.length_toDigits_le_iff (by omega) (by omega)).mpr hlt

theorem group_groupChars (g : UInt16) : Group (groupChars g) g := by
  obtain ⟨ds, hds, hchars, -⟩ := Text.exists_digits (b := 16) (by omega) g.toNat
  have hlower : ∀ d < 16, d.digitChar.toLower = d.digitChar := by decide
  have hgroup : groupChars g = ds.map Nat.digitChar := hchars
  refine ⟨length_groupChars g, 0, ?_⟩
  rw [hgroup, List.map_map]
  exact List.map_congr_left fun d hd => hlower d (hds d hd)

/-- The reader of groups takes the rows of digits that denote one. -/
theorem group?_eq_some_iff : group? cs = some g ↔ Group cs g := by
  simp only [group?, Option.bind_eq_bind, Option.bind_eq_some_iff, mapM_hexValue?_eq_some_iff,
    Option.ite_none_right_eq_some, Bool.and_eq_true, decide_eq_true_eq]
  constructor
  · rintro ⟨ds, ⟨hds, hmap⟩, ⟨hpos, hle⟩, hg⟩
    have hlength := congrArg List.length hmap
    rw [List.length_map, List.length_map] at hlength
    have hne : ds ≠ [] := List.ne_nil_of_length_pos (by omega)
    obtain ⟨k, hk⟩ := exists_zeros hne hds
    -- Four digits do not get beyond sixteen bits, so nothing is cut off.
    have hlt : ds.foldl (fun n d => 16 * n + d) 0 < 16 ^ 4 := by
      have hlengths := congrArg List.length hk
      simp only [List.length_map, List.length_append, List.length_replicate] at hlengths
      exact (Nat.length_toDigits_le_iff (by omega) (by omega)).mp (by omega)
    cases hg
    refine ⟨hle, k, ?_⟩
    rw [hmap, hk, groupChars, Text.hexDigits, UInt16.toNat_ofNat_of_lt' hlt]
  · intro h
    obtain ⟨k, hk⟩ := h.chars
    obtain ⟨ds, hds, hchars, hvalue⟩ := Text.exists_digits (b := 16) (by omega) g.toNat
    have hpos : 1 ≤ cs.length := List.length_pos_iff.mpr h.ne_nil
    refine ⟨List.replicate k 0 ++ ds, ⟨?_, ?_⟩, ⟨hpos, h.length_le⟩, ?_⟩
    · exact List.forall_mem_append.mpr
        ⟨fun d hd => (List.eq_of_mem_replicate hd).symm ▸ (by omega), hds⟩
    · rw [hk, groupChars, Text.hexDigits, hchars, List.map_append, List.map_replicate]
      rfl
    · rw [foldl_zeros, hvalue]
      exact congrArg some (UInt16.ofNat_toNat)

end Groups

end Conformance.Address.V6
