import Conformance.Proofs.Conditional.Footprint

/-! # The keys of the output

Rules add keys to the output and never take one away. Post rules only give new values to keys that
stand there already.
-/

namespace Conformance

open Value (Entries)

/-! ## Post rules -/

namespace Post

theorem mem_keys_apply {p : Post} {o o' : Entries} (h : p.apply o = .ok o') {k : Value} :
    k ∈ Entries.keys o' ↔ k ∈ Entries.keys o := by
  obtain ⟨vs, hvs, rfl | ⟨compute, gate, -, rfl⟩⟩ := apply_ok_cases h
  · rfl
  · rw [Entries.keys_insert, Value.mem_insertMember]
    constructor
    · rintro (rfl | hk)
      · exact hvs.first_mem
      · exact hk
    · exact .inr

theorem mem_keys_applyAll {post : List Post} {o : Entries} {k : Value} :
    k ∈ Entries.keys (applyAll post o).2 ↔ k ∈ Entries.keys o := by
  induction post generalizing o with
  | nil => rfl
  | cons p rest ih =>
    simp only [applyAll]
    cases h : p.apply o with
    | ok o' => exact ih.trans (mem_keys_apply h)
    | error text => exact ih

end Post

theorem Pass.mem_keys_finish {p : Pass} {post : List Post} {k : Value} :
    k ∈ Entries.keys (p.finish post).2.output ↔ k ∈ Entries.keys p.progress.output := by
  obtain ⟨progress, failures⟩ := p
  cases failures with
  | cons f rest => rfl
  | nil => exact Post.mem_keys_applyAll

/-! ## Growth -/

section Growth

variable {m : Entries} {reach : Value → Prop}

/-- An output has kept its keys and got no others than those of `reach`. -/
structure Grows (reach : Value → Prop) (o o' : Entries) : Prop where
  kept : ∀ k ∈ Entries.keys o, k ∈ Entries.keys o'
  added : ∀ k ∈ Entries.keys o', k ∈ Entries.keys o ∨ reach k

namespace Grows

variable {o o₁ o' : Entries}

theorem of_iff (h : ∀ k, k ∈ Entries.keys o' ↔ k ∈ Entries.keys o) : Grows reach o o' where
  kept k hk := (h k).mpr hk
  added k hk := .inl ((h k).mp hk)

theorem refl (o : Entries) : Grows reach o o := of_iff fun _ => Iff.rfl

theorem trans (h : Grows reach o o₁) (h' : Grows reach o₁ o') : Grows reach o o' where
  kept k hk := h'.kept k (h.kept k hk)
  added k hk := (h'.added k hk).elim (h.added k) .inr

theorem insertAll {items : List (Value × Value)} (h : ∀ k ∈ Entries.keys items, reach k)
    (o : Entries) : Grows reach o (Entries.insertAll items o) where
  kept k hk := by
    rw [Entries.keys_insertAll, Value.mem_foldl_insertMember]
    exact .inr hk
  added k hk := by
    rw [Entries.keys_insertAll, Value.mem_foldl_insertMember] at hk
    exact hk.symm.imp_right (h k)

theorem put {key : Value} (h : reach key) (p : Progress) (v : Value) :
    Grows reach p.output (p.put key v).output := by
  have hitem : ∀ k ∈ Entries.keys [(key, v)], reach k := List.forall_mem_singleton.mpr h
  exact insertAll hitem p.output

end Grows

theorem grows_of_step {r : KeyRule} {p q : Pass} (hkey : reach r.key)
    (hverdict : ∀ {s}, r.verdict? m p.progress = some (.ok s) →
      Grows reach p.progress.output s.2.output)
    (h : r.step m p = .ok q) : Grows reach p.progress.output q.progress.output := by
  rw [KeyRule.step] at h
  rcases hv : r.verdict? m p.progress with _ | (d | ⟨e | w, after⟩) <;> rw [hv] at h <;> cases h
  · exact Grows.refl _
  · exact hverdict hv
  · exact (hverdict hv).trans (Grows.put hkey after w)

theorem grows_of_claimKeys {take : Value → Value → Outcome (Option (Value × Value))}
    (hall : ∀ k, reach k) {keys : List Value} {p q : Pass} (h : claimKeys take m keys p = .ok q) :
    Grows reach p.progress.output q.progress.output := by
  rw [claimKeys_eq (offer_of_claimKeys h)] at h
  cases h
  exact Grows.insertAll (fun k _ => hall k) _

theorem Mapping.grows_of_run {t : Mapping} (hpatterns : (∀ k, reach k) ∨ t.patterns = [])
    (hkeys : ∀ {p q}, runKeys t.keys m p = .ok q →
      Grows reach p.progress.output q.progress.output)
    {unhandledOk : Bool} {p : Progress} {r : Option Invalid × Progress}
    (h : t.run unhandledOk m p = .ok r) : Grows reach p.output r.2.output := by
  obtain ⟨a, b, ha, hb, rfl⟩ := Mapping.run_ok_iff.mp h
  have hclaimed : Grows reach a.progress.output b.progress.output := by
    rcases hpatterns with hall | hnone
    · exact grows_of_claimKeys hall hb
    · rw [hnone, claimKeys_nil] at hb
      cases hb
      exact Grows.refl _
  refine (hkeys ha).trans (hclaimed.trans (Grows.of_iff fun k => ?_))
  rw [Pass.mem_keys_finish, Pass.sealed_eq]

theorem grows_of_type {key : Value} {b : Base} {p : Progress}
    {r : Except Invalid Value × Progress}
    (h : (⟨key, .type b⟩ : KeyRule).verdict? m p = some (.ok r)) :
    Grows reach p.output r.2.output := by
  obtain ⟨o, -, ho⟩ := Option.map_eq_some_iff.mp ((KeyRule.verdict_type m (key, b) p).symm.trans h)
  have hprogress : r.2 = p.claimPresent m key := by
    cases o <;> cases ho <;> rfl
  exact Grows.of_iff fun k => by rw [hprogress, Progress.output_claimPresent]

theorem grows_of_conditional {key : Value} {c : Conditional}
    (hcases : ∀ x ∈ c.cases, ∀ {p r}, x.mapping.run true m p = .ok r →
      Grows reach p.output r.2.output)
    {p : Progress} {r : Except Invalid Value × Progress}
    (h : (⟨key, .conditional c⟩ : KeyRule).verdict? m p = some (.ok r)) :
    Grows reach p.output r.2.output := by
  cases hx : c.selected? (Entries.get? key m) with
  | none =>
    rw [KeyRule.verdict_unselected hx] at h
    obtain ⟨w, -, hw⟩ := Option.map_eq_some_iff.mp h
    cases hw
    exact Grows.of_iff fun k => by rw [Progress.output_claimPresent]
  | some x =>
    rw [KeyRule.verdict_selected hx, Option.some.injEq] at h
    cases hrun : x.mapping.run true m (p.claimPresent m key) with
    | error d =>
      rw [hrun] at h
      cases h
    | ok s =>
      rw [hrun] at h
      cases h
      have hgrows := hcases x (Conditional.mem_of_selected? hx) hrun
      rwa [Progress.output_claimPresent] at hgrows

mutual

-- Names are collected over all cases of a key, so the bound holds whichever of them is selected.
/-- A pass adds keys that its tables declare. Only patterns may add others. -/
theorem grows_of_runKeys : (keys : List KeyRule) → (∀ k ∈ keyNames keys, reach k) →
    ((∀ k, reach k) ∨ Patternless keys) → ∀ {p q}, runKeys keys m p = .ok q →
      Grows reach p.progress.output q.progress.output
  | [], _, _, _, _, h => by
    cases h
    exact Grows.refl _
  | ⟨key, slot⟩ :: rest, hnames, hpatterns, p, q, h => by
    obtain ⟨hkey, hnames⟩ := List.forall_mem_cons.mp hnames
    obtain ⟨hslot, hnames⟩ := List.forall_mem_append.mp hnames
    obtain ⟨a, ha, hq⟩ := runKeys_cons_ok.mp h
    have hhead := hpatterns.imp_right fun h => h _ List.mem_cons_self
    have hrest := hpatterns.imp_right fun h => (List.forall_mem_cons.mp h).2
    exact (grows_of_step hkey (grows_of_verdict slot key hslot hhead) ha).trans
      (grows_of_runKeys rest hnames hrest hq)

theorem grows_of_verdict : (slot : Slot) → ∀ key, (∀ k ∈ slot.names, reach k) →
    ((∀ k, reach k) ∨ ∀ t, KeyRule.Leads ⟨key, slot⟩ t → t.patterns = []) →
    ∀ {p r}, (⟨key, slot⟩ : KeyRule).verdict? m p = some (.ok r) →
      Grows reach p.output r.2.output
  | .type _, _, _, _ => grows_of_type
  | .conditional ⟨cases, _, _, _⟩, _, hnames, hpatterns =>
    grows_of_conditional
      (grows_of_cases cases hnames (hpatterns.imp_right KeyRule.forall_leads_iff.mp))

theorem grows_of_cases : (cases : List Case) → (∀ k ∈ caseNames cases, reach k) →
    ((∀ k, reach k) ∨ ∀ x ∈ cases, x.mapping.patterns = [] ∧ Patternless x.mapping.keys) →
    ∀ x ∈ cases, ∀ {p r}, x.mapping.run true m p = .ok r → Grows reach p.output r.2.output
  | [], _, _ => List.forall_mem_nil _
  | ⟨_, _, ⟨keys, patterns, post, name, ok⟩⟩ :: rest, hnames, hpatterns => by
    obtain ⟨hnames, hnames'⟩ := List.forall_mem_append.mp hnames
    have hhead := hpatterns.imp_right fun h => h _ List.mem_cons_self
    have hrest := hpatterns.imp_right fun h => (List.forall_mem_cons.mp h).2
    refine List.forall_mem_cons.mpr ⟨?_, grows_of_cases rest hnames' hrest⟩
    exact Mapping.grows_of_run (hhead.imp_right And.left)
      (grows_of_runKeys keys hnames (hhead.imp_right And.right))

end

/-! ## Passes without failures -/

section Written

variable {keys : List KeyRule} {p p' : Progress}

/-- Each declared key has got an entry. -/
theorem mem_keys_of_writeAll (h : WriteAll keys m p p') :
    ∀ r ∈ keys, r.key ∈ Entries.keys p'.output := by
  induction keys generalizing p with
  | nil => exact List.forall_mem_nil _
  | cons r rest ih =>
    obtain ⟨p₁, ⟨v, after, -, rfl⟩, hrest⟩ := writeAll_cons.mp h
    have hput : r.key ∈ Entries.keys (after.put r.key v).output := by
      rw [Progress.put, Entries.keys_insert, Value.mem_insertMember]
      exact .inl rfl
    have hgrows : Grows (fun _ => True) (after.put r.key v).output p'.output :=
      grows_of_runKeys rest (fun _ _ => trivial) (.inl fun _ => trivial) hrest
    exact List.forall_mem_cons.mpr ⟨hgrows.kept _ hput, ih hrest⟩

/-- Keys that are all claimed without failures leave an entry each. -/
theorem eq_nil_of_claimKeys {take : Value → Value → Outcome (Option (Value × Value))}
    (h : claimKeys take m (Entries.keys m) ⟨.start m, []⟩ = .ok ⟨p, []⟩) (hleft : p.unhandled = [])
    (hempty : Entries.keys p.output = []) : m = [] := by
  obtain ⟨-, hnofailure, rfl⟩ := claimKeys_ends_iff.mp h
  suffices hkeys : Entries.keys m = [] from List.map_eq_nil_iff.mp hkeys
  refine List.eq_nil_iff_forall_not_mem.mpr fun key hkey => ?_
  have hclaimed : isClaimed take m key = true := by
    by_contra hnot
    have hmem : key ∈ ([] : List Value) := by
      rw [← hleft]
      exact List.mem_filter.mpr ⟨hkey, by simp [hnot]⟩
    cases hmem
  rw [isClaimed, hnofailure key hkey, Option.isSome_none, Bool.or_false,
    Option.isSome_iff_exists] at hclaimed
  obtain ⟨e, he⟩ := hclaimed
  have hitem : e ∈ (Entries.keys m).filterMap (claimedItem? take m) :=
    List.mem_filterMap.mpr ⟨key, hkey, he⟩
  have hwritten : e.1 ∈ ([] : List Value) := by
    rw [← hempty]
    exact Entries.mem_keys_ofList.mpr (List.mem_map_of_mem hitem)
  cases hwritten

/-- A table that writes no entry has been given none, unless it lets undeclared keys through and
declares none. -/
theorem Mapping.eq_nil_of_run {t : Mapping} (hdeclares : t.unhandledOk = true → t.keys ≠ [])
    (h : t.run t.unhandledOk m (.start m) = .ok (none, p)) (hempty : p.output = []) : m = [] := by
  obtain ⟨a, b, ha, hb, hallowed, hfinish⟩ := Mapping.run_accepts_iff.mp h
  have hnone : Entries.keys b.output = [] := by
    refine List.eq_nil_iff_forall_not_mem.mpr fun k hk => ?_
    have hp : k ∈ Entries.keys ((⟨b, []⟩ : Pass).finish t.post).2.output :=
      Pass.mem_keys_finish.mpr hk
    rw [hfinish, hempty] at hp
    cases hp
  have hkeys : t.keys = [] := by
    refine List.eq_nil_iff_forall_not_mem.mpr fun r hr => ?_
    have hgrows : Grows (fun _ => True) a.output b.output :=
      grows_of_claimKeys (fun _ => trivial) hb
    have hmem := hgrows.kept _ (mem_keys_of_writeAll ha r hr)
    rw [hnone] at hmem
    cases hmem
  rw [hkeys] at ha
  cases ha
  exact eq_nil_of_claimKeys hb (hallowed.resolve_left fun hok => hdeclares hok hkeys) hnone

end Written

end Growth

end Conformance
