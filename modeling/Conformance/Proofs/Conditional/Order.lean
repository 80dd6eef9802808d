import Conformance.Proofs.Conditional.Pass

/-! # The order of declared keys

Keys that neither write nor read under the keys of one another may be declared in any order. The one
way to read what another key has written is a post rule of a case.
-/

namespace Conformance

open Value (Entries)

/-! ## Effects apart from each other -/

section Effects

variable {e f : Effect (List Failure)} {near far : Value → Prop}

theorem Effect.Local.agree (h : e.Local near) (hapart : ∀ k, near k → ¬ far k) (o : Entries) :
    Agree far o (Entries.insertAll (e.act o).2 o) := by
  intro k hk
  have hnot : k ∉ Entries.keys (e.act o).2 := by
    intro hmem
    obtain ⟨x, hx, rfl⟩ := List.mem_map.mp hmem
    exact hapart x.1 (h.writes o x hx) hk
  rw [Entries.get?_insertAll, Entries.get?_ofList_eq_none hnot, Option.none_or]

/-- Of two effects apart from each other the later one finds what it would find at first. -/
theorem Effect.ends_comm (he : e.Local near) (hf : f.Local far) (hapart : ∀ k, near k → ¬ far k)
    {p p' : Progress} :
    (∃ a, e.onPass ⟨p, []⟩ = .ok ⟨a, []⟩ ∧ f.onPass ⟨a, []⟩ = .ok ⟨p', []⟩) →
      ∃ a, f.onPass ⟨p, []⟩ = .ok ⟨a, []⟩ ∧ e.onPass ⟨a, []⟩ = .ok ⟨p', []⟩ := by
  simp only [onPass_ends_iff]
  rintro ⟨_, ⟨hebroken, henone, rfl⟩, hfbroken, hfnone, rfl⟩
  have hfirst : f.act (Entries.insertAll (e.act p.output).2 p.output) = f.act p.output :=
    (hf.reads _ _ (he.agree hapart p.output)).symm
  have hsecond : e.act (Entries.insertAll (f.act p.output).2 p.output) = e.act p.output :=
    (he.reads _ _ (hf.agree (fun k hk hk' => hapart k hk' hk) p.output)).symm
  have hkeys : (Entries.keys (e.act p.output).2).Disjoint (Entries.keys (f.act p.output).2) := by
    intro k hk hk'
    obtain ⟨x, hx, rfl⟩ := List.mem_map.mp hk
    obtain ⟨y, hy, hxy⟩ := List.mem_map.mp hk'
    exact hapart x.1 (he.writes _ x hx) (hxy ▸ hf.writes _ y hy)
  have hclaims : (p.unhandled.filter (· ∉ e.claims)).filter (· ∉ f.claims) =
      (p.unhandled.filter (· ∉ f.claims)).filter (· ∉ e.claims) := List.filter_comm _ _ _
  simp only [Progress.claimAll, Progress.putAll, hfirst] at hfnone ⊢
  refine ⟨_, ⟨hfbroken, hfnone, rfl⟩, hebroken, ?_, ?_⟩
  · rw [hsecond, henone]
  · rw [hsecond, hclaims, Entries.insertAll_comm hkeys]

end Effects

/-! ## Keys apart from each other -/

def KeyRule.scope (r : KeyRule) : List Value := r.key :: r.slot.names

structure Independent (keys : List KeyRule) : Prop where
  confined : ∀ r ∈ keys, r.Confined (· ∈ r.scope)
  apart : keys.Pairwise fun r s => r.scope.Disjoint s.scope

theorem Independent.perm {keys keys' : List KeyRule} (h : Independent keys)
    (hperm : keys.Perm keys') : Independent keys' where
  confined r hr := h.confined r (hperm.mem_iff.mpr hr)
  apart := hperm.pairwise h.apart fun hrs => hrs.symm

theorem Independent.tail {r : KeyRule} {rest : List KeyRule} (h : Independent (r :: rest)) :
    Independent rest where
  confined s hs := h.confined s (List.mem_cons_of_mem r hs)
  apart := (List.pairwise_cons.mp h.apart).2

section Passes

variable {m : Entries} {r s : KeyRule} {keys keys' : List KeyRule} {p p' : Progress}

theorem writes_iff_ends (h : r.Confined (· ∈ r.scope)) :
    ∃ e : Effect (List Failure), e.Local (· ∈ r.scope) ∧
      ∀ ⦃p p' : Progress⦄, p.Within m → (r.Writes m p p' ↔ e.onPass ⟨p, []⟩ = .ok ⟨p', []⟩) := by
  obtain ⟨e, -, hlocal, hrun⟩ := runKeys_footprint (m := m) [r] (List.forall_mem_singleton.mpr h)
  refine ⟨e, hlocal, fun p p' hp => ?_⟩
  rw [← writeAll_singleton, WriteAll, hrun ⟨p, []⟩ hp]

theorem writeAll_swap (h : Independent (r :: s :: keys)) (hp : p.Within m)
    (hwrite : WriteAll (r :: s :: keys) m p p') : WriteAll (s :: r :: keys) m p p' := by
  have hapart : ∀ k, k ∈ r.scope → ¬ k ∈ s.scope := fun k hr hs =>
    (List.pairwise_cons.mp h.apart).1 s List.mem_cons_self hr hs
  obtain ⟨e, he, hends⟩ := writes_iff_ends (m := m) (h.confined r List.mem_cons_self)
  obtain ⟨f, hf, hends'⟩ :=
    writes_iff_ends (m := m) (h.confined s (List.mem_cons_of_mem r List.mem_cons_self))
  obtain ⟨a, ha, hrest⟩ := writeAll_cons.mp hwrite
  obtain ⟨b, hb, hrest⟩ := writeAll_cons.mp hrest
  have hfirst := (hends hp).mp ha
  have hwithin : a.Within m := Effect.within_of_onPass (p := ⟨p, []⟩) hp hfirst
  obtain ⟨c, hc, hsecond⟩ := Effect.ends_comm he hf hapart ⟨a, hfirst, (hends' hwithin).mp hb⟩
  have hwithin' : c.Within m := Effect.within_of_onPass (p := ⟨p, []⟩) hp hc
  have htail : WriteAll (r :: keys) m c p' :=
    writeAll_cons.mpr ⟨b, (hends hwithin').mpr hsecond, hrest⟩
  exact writeAll_cons.mpr ⟨c, (hends' hp).mpr hc, htail⟩

theorem writeAll_perm (hperm : keys.Perm keys') (h : Independent keys) (hp : p.Within m)
    (hwrite : WriteAll keys m p p') : WriteAll keys' m p p' := by
  induction hperm generalizing p with
  | nil => exact hwrite
  | cons r _ ih =>
    obtain ⟨a, ha, hrest⟩ := writeAll_cons.mp hwrite
    obtain ⟨e, -, hends⟩ := writes_iff_ends (m := m) (h.confined r List.mem_cons_self)
    have hwithin : a.Within m := Effect.within_of_onPass (p := ⟨p, []⟩) hp ((hends hp).mp ha)
    exact writeAll_cons.mpr ⟨a, ha, ih h.tail hwithin hrest⟩
  | swap r s rest => exact writeAll_swap h hp hwrite
  | trans first _ ih₁ ih₂ => exact ih₂ (h.perm first) hp (ih₁ h hp hwrite)

end Passes

/-! ## Names below a rule -/

theorem mem_keyNames {keys : List KeyRule} {k : Value} :
    k ∈ keyNames keys ↔ ∃ r ∈ keys, k ∈ r.scope := by
  induction keys with
  | nil => simp [keyNames]
  | cons r rest ih =>
    obtain ⟨key, slot⟩ := r
    change k ∈ KeyRule.scope ⟨key, slot⟩ ++ keyNames rest ↔ _
    rw [List.mem_append, ih, List.exists_mem_cons_iff]

theorem mem_caseNames {cases : List Case} {k : Value} :
    k ∈ caseNames cases ↔ ∃ x ∈ cases, k ∈ keyNames x.mapping.keys := by
  induction cases with
  | nil => simp [caseNames]
  | cons x rest ih =>
    obtain ⟨value, settings, ⟨keys, patterns, post, name, ok⟩⟩ := x
    change k ∈ keyNames keys ++ caseNames rest ↔ _
    rw [List.mem_append, ih, List.exists_mem_cons_iff]

theorem KeyRule.Leads.keyNames_subset {r : KeyRule} {t : Mapping} (h : r.Leads t) :
    keyNames t.keys ⊆ r.slot.names := by
  have hcase : ∀ {c : Conditional} {x : Case}, x ∈ c.cases →
      keyNames x.mapping.keys ⊆ c.names := by
    intro c x hx k hk
    obtain ⟨cases, optional, default, applyDefaultSpec⟩ := c
    exact mem_caseNames.mpr ⟨x, hx, hk⟩
  induction h with
  | case hx => exact hcase hx
  | deeper hx hr _ ih =>
    intro k hk
    exact hcase hx (mem_keyNames.mpr ⟨_, hr, List.mem_cons_of_mem _ (ih hk)⟩)

/-- A rule keeps to the keys that it and the tables below it declare, if their post rules do. -/
theorem KeyRule.confined_of_scope {r : KeyRule} {reach : Value → Prop}
    (scope : ∀ k ∈ r.scope, reach k) (patternless : ∀ t, r.Leads t → t.patterns = [])
    (own : ∀ t, r.Leads t → ∀ p ∈ t.post, ∀ k ∈ p.refKeys, reach k) : r.Confined reach where
  key := scope r.key List.mem_cons_self
  patterns := patternless
  names t ht s hs := by
    have hname : s.key ∈ keyNames t.keys := mem_keyNames.mpr ⟨s, hs, List.mem_cons_self⟩
    exact scope s.key (List.mem_cons_of_mem _ (ht.keyNames_subset hname))
  post := own

theorem independent_of_own {keys : List KeyRule} (patternless : Patternless keys)
    (distinct : keys.Pairwise fun r s => r.scope.Disjoint s.scope)
    (own : ∀ r ∈ keys, ∀ t, r.Leads t → ∀ p ∈ t.post, p.refKeys ⊆ r.scope) :
    Independent keys where
  confined r hr := KeyRule.confined_of_scope (fun _ hk => hk) (patternless r hr) (own r hr)
  apart := distinct

/-! ## The check -/

/-- Keys may be declared in any order if no post rule of a case refers to keys beyond the
conditional that the case belongs to. -/
theorem check_perm {settings : Settings} {t : Mapping} {keys : List KeyRule} {m : Entries}
    {out : Value} (required : settings.optional = false) (reordered : t.keys.Perm keys)
    (patternless : Patternless t.keys)
    (distinct : t.keys.Pairwise fun r s => r.scope.Disjoint s.scope)
    (own : ∀ r ∈ t.keys, ∀ u, r.Leads u → ∀ p ∈ u.post, p.refKeys ⊆ r.scope) :
    (⟨settings, .mapping t⟩ : Spec).check (.map m) = .ok out ↔
      (⟨settings, .mapping { t with keys }⟩ : Spec).check (.map m) = .ok out := by
  have hindependent : Independent t.keys := independent_of_own patternless distinct own
  have hstart := Progress.within_start m
  refine Spec.check_mapping_congr required rfl rfl rfl (fun a => ⟨?_, ?_⟩) fun _ _ _ _ => rfl
  · exact writeAll_perm reordered hindependent hstart
  · exact writeAll_perm reordered.symm (hindependent.perm reordered) hstart

namespace Membership

def nonempty (key : Value) : Post :=
  ⟨key, [], .test ⟨⟨[0]⟩, fun vs => vs.all Value.isTruthy⟩ "is empty"⟩

/-- Groups have a size, and something about a group is tested. -/
def kind (tested : Value) : KeyRule :=
  ⟨.str "kind", .conditional
    ⟨[⟨.str "group", .required,
      ⟨[⟨.str "size", .type (.atom (.kind .int))⟩], [], [nonempty tested], "group", false⟩⟩],
      false, .null, false⟩⟩

def name : KeyRule := ⟨.str "name", .type (.atom (.kind .str))⟩

def table (keys : List KeyRule) : Mapping := ⟨keys, [], [], "member", false⟩

def request : Entries :=
  [(.str "kind", .str "group"), (.str "name", .str "choir"), (.str "size", .int 12)]

end Membership

theorem check_perm_membership :
    (⟨.required, .mapping (Membership.table [Membership.name, Membership.kind (.str "size")])⟩ :
      Spec).check (.map Membership.request) = .ok (.map Membership.request) := by
  let keys := [Membership.kind (.str "size"), Membership.name]
  have required : Settings.required.optional = false := rfl
  have reordered : keys.Perm [Membership.name, Membership.kind (.str "size")] := .swap _ _ _
  have patternless : Patternless keys := by decide
  have distinct : keys.Pairwise fun r s => r.scope.Disjoint s.scope := by
    simp [keys, List.pairwise_cons, List.Disjoint, KeyRule.scope, Membership.kind, Membership.name,
      Slot.names, Conditional.names, caseNames, Mapping.names, keyNames]
  have own : ∀ r ∈ keys, ∀ u, r.Leads u → ∀ p ∈ u.post, p.refKeys ⊆ r.scope := by
    intro r hr u hu p hp
    rcases List.mem_pair.mp hr with rfl | rfl
    · obtain ⟨x, hx, rfl | ⟨s, hs, hdeep⟩⟩ := KeyRule.leads_conditional_iff.mp hu
      · obtain rfl := List.mem_singleton.mp hx
        obtain rfl := List.mem_singleton.mp hp
        decide
      · obtain rfl := List.mem_singleton.mp hx
        obtain rfl := List.mem_singleton.mp hs
        exact absurd hdeep KeyRule.not_leads_type
    · exact absurd hu KeyRule.not_leads_type
  exact (check_perm (t := Membership.table keys) required reordered patternless distinct own).mp rfl

/-- A post rule of a case does not find a key of the mapping that is declared later. -/
theorem check_perm_dependent :
    (⟨.required, .mapping (Membership.table [Membership.name, Membership.kind (.str "name")])⟩ :
      Spec).check (.map Membership.request) = .ok (.map Membership.request) ∧
    (⟨.required, .mapping (Membership.table [Membership.kind (.str "name"), Membership.name])⟩ :
      Spec).check (.map Membership.request) ≠ .ok (.map Membership.request) :=
  ⟨rfl, nofun⟩

end Conformance
