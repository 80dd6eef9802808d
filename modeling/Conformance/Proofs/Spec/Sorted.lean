import Conformance.Proofs.Spec.Buildable
import Conformance.Proofs.Stable.Mapping
import Conformance.Proofs.Value.Sorted

/-! # Checked values are sorted

A check hands on parts of what it is given, and adds keys and defaults that the specification holds
and what functions of the user make. Each collection is built anew, in ascending order.
-/

namespace Conformance

open Value (Entries)

/-! ## What a specification adds -/

def Canonicalizer.KeepsSorted (c : Canonicalizer) : Prop :=
  ∀ v w, v.Sorted → c.run.run v = .ok w → w.Sorted

def Post.KeepsSorted (p : Post) : Prop :=
  ∀ compute gate, p.action = .update compute gate →
    ∀ vs, (∀ v ∈ vs, v.Sorted) → (compute.run vs).Sorted

structure Mapping.WritesSorted (t : Mapping) : Prop where
  keys : ∀ r ∈ t.keys, r.key.Sorted
  defaults : ∀ r ∈ t.keys, ∀ c, r.slot = .conditional c → c.default.Sorted
  post : ∀ p ∈ t.post, p.KeepsSorted

def Rule.WritesSorted : Rule → Prop
  | .scalar _ c => ∀ f ∈ c, f.KeepsSorted
  | .enum _ c => ∀ f ∈ c, f.KeepsSorted
  | .mapping t => t.WritesSorted
  | _ => True

/-- The values that a specification writes itself are sorted, and its functions keep values so. -/
structure Spec.WritesSorted (s : Spec) : Prop where
  default : s.defaultValue.Sorted
  rule : s.rule.WritesSorted

/-! ## What a check makes of sorted values -/

def Progress.Sorted (p : Progress) : Prop := (Value.map p.output).Sorted

theorem Progress.sorted_start {m : Entries} : (start m).Sorted := Value.sorted_map_nil

/-- A run on a sorted mapping adds sorted entries to sorted ones. -/
def Mapping.Sorts (t : Mapping) : Prop :=
  ∀ ⦃m unhandledOk p r⦄, (Value.map m).Sorted → p.Sorted → t.run unhandledOk m p = .ok r →
    r.2.Sorted

structure Spec.Sorts (s : Spec) : Prop where
  default : s.defaultValue.Sorted
  check : ∀ ⦃v c⦄, v.Sorted → s.check v = .ok c → c.Sorted
  run : ∀ t, s.rule = .mapping t → t.Sorts

section Types

variable {b : Base}

theorem Base.sorted_of_check (hb : ∀ s ∈ b.specs, s.Sorts) {v c : Value} (hv : v.Sorted)
    (h : b.check v = .ok c) : c.Sorted := by
  cases b with
  | atom a =>
    obtain ⟨rfl, -⟩ := Atom.check_ok_iff.mp h
    exact hv
  | spec s => exact (hb s List.mem_cons_self).check hv h

/-- A value that is absent gives way to a default that is sorted. -/
theorem Base.sorted_of_provided (hb : ∀ s ∈ b.specs, s.Sorts) {v? : Option Value}
    (hv : ∀ v ∈ v?, v.Sorted) {w : Value} (h : b.provided? v? = some (.ok w)) : w.Sorted := by
  cases v? with
  | some v => exact sorted_of_check hb (hv v rfl) (Option.some.inj h)
  | none =>
    cases b with
    | atom a => cases h
    | spec s =>
      have hs : s.Sorts := hb s List.mem_cons_self
      simp only [provided?, fallback?] at h
      split at h
      · exact hs.check hs.default (Option.some.inj h)
      · cases h

theorem Base.sorted_of_checkAny {types : List Base} (h : ∀ s ∈ types.flatMap Base.specs, s.Sorts)
    {v c : Value} (hv : v.Sorted) (hc : Base.checkAny types v = .ok c) : c.Sorted := by
  obtain ⟨b, hb, hbc⟩ := Base.mem_of_checkAny hc
  exact sorted_of_check (List.forall_mem_flatMap.mp h b hb) hv hbc

theorem sorted_of_gathered {types : List Base} (h : ∀ s ∈ types.flatMap Base.specs, s.Sorts)
    {items checked : List Value} (hitems : ∀ v ∈ items, v.Sorted)
    (hall : List.Forall₂ (fun v c => Base.checkAny types v = .ok c) items checked) :
    ∀ c ∈ checked, c.Sorted :=
  Result.forall_mem_of_forall₂ hall fun v hv _ hc => Base.sorted_of_checkAny h (hitems v hv) hc

theorem Container.sorted_collect (container : Container) {items : List Value}
    (h : ∀ v ∈ items, v.Sorted) : (container.collect items).Sorted := by
  cases container with
  | list => exact Value.sorted_list_iff.mpr h
  | tuple => exact Value.sorted_tuple_iff.mpr h
  | set => exact Value.sorted_ofMembers h

theorem sorted_of_checkPositions {positions : List Base}
    (h : ∀ s ∈ positions.flatMap Base.specs, s.Sorts) {place : Nat} {items checked : List Value}
    (hitems : ∀ v ∈ items, v.Sorted)
    (hc : checkPositions place positions items = .ok (checked, [])) : ∀ c ∈ checked, c.Sorted := by
  refine Result.forall_mem_of_forall₂ (checkPositions_ok_iff.mp hc) fun a ha w hw => ?_
  rw [← List.map_uncurry_zip_eq_zipWith] at ha
  obtain ⟨⟨b, v⟩, hmem, rfl⟩ := List.mem_map.mp ha
  obtain ⟨hb, hv⟩ := List.of_mem_zip hmem
  exact Base.sorted_of_check (List.forall_mem_flatMap.mp h b hb) (hitems v hv) hw

end Types

/-! ### Post rules -/

section PostRules

variable {o : Entries}

theorem Post.sorted_of_apply {p : Post} (hp : p.KeepsSorted) (ho : (Value.map o).Sorted)
    {o' : Entries} (h : p.apply o = .ok o') : (Value.map o').Sorted := by
  obtain ⟨vs, hvs, rfl | ⟨compute, gate, haction, rfl⟩⟩ := apply_ok_cases h
  · exact ho
  · obtain ⟨v, hv⟩ := Entries.exists_get?_of_mem_keys hvs.first_mem
    have hvalues : ∀ v ∈ vs, v.Sorted :=
      Result.forall_mem_of_forall₂ hvs fun k _ v hv => (ho.get? hv).2
    exact ho.insert (ho.get? hv).1 (hp compute gate haction _ hvalues)

theorem Post.sorted_of_applyAll {post : List Post} (hpost : ∀ p ∈ post, p.KeepsSorted)
    (ho : (Value.map o).Sorted) : (Value.map (applyAll post o).2).Sorted := by
  induction post generalizing o with
  | nil => exact ho
  | cons p rest ih =>
    obtain ⟨hp, hrest⟩ := List.forall_mem_cons.mp hpost
    simp only [applyAll]
    cases h : p.apply o with
    | ok o' => exact ih hrest (sorted_of_apply hp ho h)
    | error text => exact ih hrest ho

theorem Pass.sorted_finish {p : Pass} {post : List Post} (hpost : ∀ p ∈ post, p.KeepsSorted)
    (hp : p.progress.Sorted) : (p.finish post).2.Sorted := by
  obtain ⟨progress, failures⟩ := p
  cases failures with
  | cons f rest => exact hp
  | nil => exact Post.sorted_of_applyAll hpost hp

end PostRules

/-! ### Keys -/

section Keys

variable {m : Entries}

theorem Progress.Sorted.claimPresent {p : Progress} (hp : p.Sorted) (key : Value) :
    (p.claimPresent m key).Sorted := by
  rw [Progress.Sorted, Progress.output_claimPresent]
  exact hp

theorem sorted_found (hm : (Value.map m).Sorted) (key : Value) :
    ∀ v ∈ Entries.get? key m, v.Sorted := fun _ hv => (hm.get? hv).2

/-- The verdict on a key leaves sorted progress, with a value that is sorted if there is one. -/
def KeyRule.Sorts (m : Entries) (r : KeyRule) : Prop :=
  ∀ ⦃p s⦄, p.Sorted → r.verdict? m p = some (.ok s) → s.2.Sorted ∧ ∀ w, s.1 = .ok w → w.Sorted

theorem KeyRule.sorts_type {key : Value} {b : Base} (hm : (Value.map m).Sorted)
    (hb : ∀ s ∈ b.specs, s.Sorts) : (⟨key, .type b⟩ : KeyRule).Sorts m := by
  intro p s hp h
  obtain ⟨o, ho, hs⟩ :=
    Option.map_eq_some_iff.mp ((KeyRule.verdict_type m (key, b) p).symm.trans h)
  cases o with
  | ok v =>
    cases hs
    refine ⟨hp.claimPresent key, fun w hw => ?_⟩
    cases hw
    exact Base.sorted_of_provided hb (sorted_found hm key) ho
  | invalid e =>
    cases hs
    exact ⟨hp.claimPresent key, fun w hw => nomatch hw⟩
  | defect d => cases hs

theorem Conditional.sorted_of_unselected {c : Conditional} (hdefault : c.default.Sorted)
    {v? : Option Value} (hv : ∀ v ∈ v?, v.Sorted) {w : Value}
    (h : c.unselected? v? = some (.ok w)) : w.Sorted := by
  cases v? with
  | some v =>
    simp only [unselected?] at h
    split at h <;> cases h
    exact hv _ rfl
  | none =>
    simp only [unselected?] at h
    split at h <;> cases h
    exact hdefault

theorem Conditional.sorted_of_concluded {c : Conditional} (hdefault : c.default.Sorted)
    {v? : Option Value} (hv : ∀ v ∈ v?, v.Sorted) {e? : Option Invalid} {w : Value}
    (h : c.concluded v? e? = .ok w) : w.Sorted := by
  cases v? <;> cases e? <;> cases h
  · exact hdefault
  · exact hv _ rfl

theorem KeyRule.sorts_conditional {key : Value} {c : Conditional} (hm : (Value.map m).Sorted)
    (hdefault : c.default.Sorted) (hcases : ∀ x ∈ c.cases, x.mapping.Sorts) :
    (⟨key, .conditional c⟩ : KeyRule).Sorts m := by
  intro p s hp h
  have hv := sorted_found hm key
  cases hx : c.selected? (Entries.get? key m) with
  | none =>
    rw [KeyRule.verdict_unselected hx] at h
    obtain ⟨w?, hw?, hs⟩ := Option.map_eq_some_iff.mp h
    cases hs
    refine ⟨hp.claimPresent key, fun w hw => ?_⟩
    obtain rfl : w? = .ok w := hw
    exact c.sorted_of_unselected hdefault hv hw?
  | some x =>
    rw [KeyRule.verdict_selected hx, Option.some.injEq] at h
    cases hrun : x.mapping.run true m (p.claimPresent m key) with
    | error d =>
      rw [hrun] at h
      cases h
    | ok r =>
      rw [hrun] at h
      cases h
      have hr : r.2.Sorted :=
        hcases x (Conditional.mem_of_selected? hx) hm (hp.claimPresent key) hrun
      exact ⟨hr, fun w hw => c.sorted_of_concluded hdefault hv hw⟩

theorem KeyRule.sorted_of_step {r : KeyRule} (hr : r.Sorts m) (hkey : r.key.Sorted) {p q : Pass}
    (hp : p.progress.Sorted) (h : r.step m p = .ok q) : q.progress.Sorted := by
  rw [KeyRule.step] at h
  rcases hv : r.verdict? m p.progress with _ | (d | ⟨e | w, after⟩) <;> rw [hv] at h <;> cases h
  · exact hp
  · exact (hr hp hv).1
  · obtain ⟨hafter, hw⟩ := hr hp hv
    exact Value.Sorted.insert hafter hkey (hw w rfl)

theorem sorted_of_runKeys {keys : List KeyRule} (h : ∀ r ∈ keys, r.Sorts m ∧ r.key.Sorted)
    {p q : Pass} (hp : p.progress.Sorted) (hq : runKeys keys m p = .ok q) : q.progress.Sorted := by
  induction keys generalizing p with
  | nil =>
    cases hq
    exact hp
  | cons r rest ih =>
    obtain ⟨⟨hr, hkey⟩, hrest⟩ := List.forall_mem_cons.mp h
    obtain ⟨a, ha, hq⟩ := runKeys_cons_ok.mp hq
    exact ih hrest (KeyRule.sorted_of_step hr hkey hp ha) hq

/-- A pattern that takes a key gives the canonical key, and its type the checked value. -/
theorem mem_of_takeKey_ok {patterns : List PatternRule} {key v : Value} {e : Value × Value}
    (h : takeKey patterns key v = .ok (some e)) :
    ∃ r ∈ patterns, r.pattern.check key = .ok e.1 ∧ r.type.check v = .ok e.2 := by
  induction patterns with
  | nil => cases h
  | cons r rest ih =>
    obtain ⟨pattern, type⟩ := r
    rw [takeKey] at h
    cases hp : pattern.check key with
    | ok key' =>
      simp only [hp] at h
      cases ht : type.check v with
      | ok w =>
        simp only [ht] at h
        cases h
        exact ⟨_, List.mem_cons_self, hp, ht⟩
      | invalid err => simp [ht, Outcome.map] at h
      | defect d => simp [ht, Outcome.map] at h
    | invalid err =>
      simp only [hp] at h
      obtain ⟨r, hr, hchecks⟩ := ih h
      exact ⟨r, List.mem_cons_of_mem _ hr, hchecks⟩
    | defect d =>
      simp only [hp] at h
      cases h

theorem sorted_of_claimKeys {patterns : List PatternRule} (hm : (Value.map m).Sorted)
    (h : ∀ r ∈ patterns, ∀ s ∈ r.pattern.specs ++ r.type.specs, s.Sorts) {keys : List Value}
    {p q : Pass} (hp : p.progress.Sorted) (hq : claimKeys (takeKey patterns) m keys p = .ok q) :
    q.progress.Sorted := by
  rw [claimKeys_eq (offer_of_claimKeys hq)] at hq
  cases hq
  refine Value.Sorted.insertAll hp fun e he => ?_
  obtain ⟨key, -, hitem⟩ := List.mem_filterMap.mp he
  obtain ⟨v, hv, htake⟩ := claimedItem_eq_some_iff.mp hitem
  obtain ⟨r, hr, hpattern, htype⟩ := mem_of_takeKey_ok htake
  obtain ⟨hfirst, hsecond⟩ := List.forall_mem_append.mp (h r hr)
  obtain ⟨hkey, hvalue⟩ := hm.get? hv
  exact ⟨Base.sorted_of_check hfirst hkey hpattern, Base.sorted_of_check hsecond hvalue htype⟩

end Keys

/-! ### Rules and specifications -/

theorem Mapping.sorts_of_parts {t : Mapping} (own : t.WritesSorted)
    (parts : ∀ s ∈ (Rule.mapping t).specs, s.Sorts) : t.Sorts := by
  intro m unhandledOk p r hm hp h
  rw [Rule.specs, List.forall_mem_append, List.forall_mem_flatMap, List.forall_mem_flatMap] at parts
  obtain ⟨hslots, hpatterns⟩ := parts
  obtain ⟨a, b, ha, hb, rfl⟩ := Mapping.run_ok_iff.mp h
  have hkeys : ∀ r ∈ t.keys, r.Sorts m ∧ r.key.Sorted := by
    rintro ⟨key, slot⟩ hr
    refine ⟨?_, own.keys _ hr⟩
    cases slot with
    | type b => exact KeyRule.sorts_type hm (hslots _ hr)
    | conditional c =>
      refine KeyRule.sorts_conditional hm (own.defaults _ hr c rfl) fun x hx => ?_
      exact (hslots _ hr x.spec (List.mem_map_of_mem hx)).run x.mapping rfl
  have hclaimed : b.progress.Sorted :=
    sorted_of_claimKeys hm hpatterns (sorted_of_runKeys hkeys hp ha) hb
  refine Pass.sorted_finish own.post ?_
  rw [Pass.sealed_eq]
  exact hclaimed

section Rules

variable {rule : Rule} {v c : Value}

theorem Rule.sorted_of_check (own : rule.WritesSorted) (parts : ∀ s ∈ rule.specs, s.Sorts)
    (hv : v.Sorted) (h : rule.check v = .ok c) : c.Sorted := by
  cases rule with
  | scalar a canonicalizer =>
    rw [Rule.scalar_same h]
    exact hv
  | enum members canonicalizer =>
    rw [Rule.enum_same h]
    exact hv
  | union types => exact Base.sorted_of_checkAny parts hv h
  | iter types container =>
    obtain ⟨items, checked, hitems, hall, rfl⟩ := Rule.iter_check_ok_iff.mp h
    exact container.sorted_collect (sorted_of_gathered parts (hv.elements hitems) hall)
  | seq positions container =>
    obtain ⟨items, checked, hitems, -, hchecked, rfl⟩ := Rule.seq_check_ok_iff.mp h
    have hsorted := hv.elements (Value.elements_of_sequence hitems)
    exact container.sorted_collect (sorted_of_checkPositions parts hsorted hchecked)
  | mapping t =>
    obtain ⟨m, p, rfl, hrun, rfl⟩ := Rule.mapping_check_ok_iff.mp h
    exact Mapping.sorts_of_parts own parts hv Progress.sorted_start hrun

theorem Canonicalizer.sorted_of_apply {f? : Option Canonicalizer} (hf : ∀ f ∈ f?, f.KeepsSorted)
    (hv : v.Sorted) (h : applyOption f? v = .ok c) : c.Sorted := by
  cases f? with
  | none =>
    cases h
    exact hv
  | some f =>
    simp only [applyOption, apply] at h
    split at h
    · next hrun =>
      cases h
      exact hf f rfl v c hv hrun
    all_goals cases h

theorem Rule.sorted_of_canonicalize (own : rule.WritesSorted) (hv : v.Sorted)
    (h : rule.canonicalize v = .ok c) : c.Sorted := by
  cases rule with
  | scalar a f? | enum members f? => exact Canonicalizer.sorted_of_apply own hv h
  | _ =>
    cases h
    exact hv

end Rules

theorem Spec.Throughout.sorts {s : Spec} (h : s.Throughout WritesSorted) : s.Sorts := by
  induction h with
  | @intro s own _ parts =>
    obtain ⟨settings, rule⟩ := s
    refine ⟨own.default, fun v c hv hc => ?_, fun t ht => ?_⟩
    · obtain ⟨w, hw, -, hc⟩ := Spec.check_ok_iff.mp hc
      have hgiven : (settings.given v).Sorted := by
        unfold Settings.given
        split
        · exact own.default
        · exact hv
      exact Rule.sorted_of_canonicalize own.rule (Rule.sorted_of_check own.rule parts hgiven hw) hc
    · obtain rfl : rule = .mapping t := ht
      exact Mapping.sorts_of_parts own.rule parts

end Conformance
