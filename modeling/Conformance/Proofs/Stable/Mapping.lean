import Conformance.Proofs.Conditional.Output

/-! # Mappings on what they have given

The output of a table holds what its keys have written and what its patterns have claimed. On the
output the keys write the same, and the patterns claim just what is left, each key under itself.
-/

namespace Conformance

open Value (Entries Ascending)

theorem Rule.mapping_check_ok_iff {t : Mapping} {v c : Value} :
    (Rule.mapping t).check v = .ok c ↔
      ∃ m p, v = .map m ∧ t.run t.unhandledOk m (.start m) = .ok (none, p) ∧ c = .map p.output := by
  cases v with
  | map m =>
    change (t.run t.unhandledOk m (.start m)).close = .ok c ↔ _
    constructor
    · intro h
      rcases hr : t.run t.unhandledOk m (.start m) with d | ⟨_ | e, p⟩ <;> rw [hr] at h <;> cases h
      exact ⟨m, p, rfl, hr, rfl⟩
    · rintro ⟨_, p, hm, hr, rfl⟩
      cases hm
      rw [hr]
      rfl
  | _ => simp [Rule.check, Value.entries?]

/-- Patterns that leave keys as they are take a checked value once more. -/
theorem takeKey_again {patterns : List PatternRule}
    (h : ∀ r ∈ patterns, r.pattern.IsAtom ∧ r.type.Stable) {key v : Value} {e : Value × Value}
    (ht : takeKey patterns key v = .ok (some e)) :
    e.1 = key ∧ takeKey patterns key e.2 = .ok (some e) := by
  induction patterns with
  | nil => cases ht
  | cons r rest ih =>
    obtain ⟨pattern, type⟩ := r
    obtain ⟨⟨hatom, hstable⟩, hrest⟩ := List.forall_mem_cons.mp h
    simp only [takeKey] at ht ⊢
    cases hp : pattern.check key with
    | ok key' =>
      obtain rfl : key' = key := Base.check_of_isAtom hatom hp
      rw [hp] at ht
      cases hv : type.check v with
      | ok w =>
        rw [hv] at ht
        cases ht
        exact ⟨rfl, by simp [hstable hv, Outcome.map]⟩
      | invalid err =>
        rw [hv] at ht
        cases ht
      | defect d =>
        rw [hv] at ht
        cases ht
    | invalid err =>
      rw [hp] at ht
      exact ih hrest ht
    | defect d =>
      rw [hp] at ht
      cases ht

section Tables

variable {t : Mapping}

/-- What a table that accepts a mapping has written: the entries of its keys, and those of keys left
over under the same keys. -/
structure Written (t : Mapping) (m : Entries) (p : Progress) (ws claimed : List (Value × Value)) :
    Prop where
  output : p.output = Entries.ofList (ws ++ claimed)
  nodup : (Entries.keys ws).Nodup
  again : ∀ ⦃out : Entries⦄ ⦃q : Progress⦄, out.Includes ws → q.output = [] →
    WriteAll t.keys out q (q.enter ws)
  claims : ∀ e ∈ claimed, e.1 ∉ Entries.keys ws ∧ claimedItem? (takeKey t.patterns) m e.1 = some e ∧
    takeKey t.patterns e.1 e.2 = .ok (some e)
  met : Post.Met t.post p.output

theorem written_of_run (hkeys : Replays t.names (WriteAll t.keys))
    (hpatterns : ∀ r ∈ t.patterns, r.pattern.IsAtom ∧ r.type.Stable)
    (htests : ∀ r ∈ t.post, r.IsTest) {m : Entries} {p : Progress}
    (h : t.run t.unhandledOk m (.start m) = .ok (none, p)) :
    ∃ ws claimed, Written t m p ws claimed := by
  obtain ⟨a, hwrite, hclaim, -, hmet⟩ := (Mapping.run_ends_iff htests).mp h
  obtain ⟨ws, rfl, hnodup, -, hagain⟩ := hkeys (Progress.within_start m) hwrite
  obtain ⟨-, -, rfl⟩ := claimKeys_ends_iff.mp hclaim
  set pending := ((Progress.start m).enter ws).unhandled
  refine ⟨ws, pending.filterMap (claimedItem? (takeKey t.patterns) m),
    ⟨?_, hnodup, fun out q hout hq => hagain hout hq, ?_, hmet⟩⟩
  · rw [Entries.ofList_eq_insertAll, Entries.insertAll_append]
    rfl
  · intro e he
    obtain ⟨key, hkey, hitem⟩ := List.mem_filterMap.mp he
    have hnot : key ∉ Entries.keys ws := by
      simpa using (List.mem_filter.mp hkey).2
    obtain ⟨v, -, htake⟩ := claimedItem_eq_some_iff.mp hitem
    obtain ⟨rfl, hsecond⟩ := takeKey_again hpatterns htake
    exact ⟨hnot, hitem, hsecond⟩

namespace Written

variable {m : Entries} {p : Progress} {ws claimed : List (Value × Value)}

theorem includes (h : Written t m p ws claimed) : p.output.Includes (ws ++ claimed) := by
  rw [h.output]
  refine Entries.includes_ofList fun e he e' he' hkey => ?_
  rcases List.mem_append.mp he with he | he <;> rcases List.mem_append.mp he' with he' | he'
  · exact List.inj_on_of_nodup_map h.nodup he he' hkey
  · exact absurd (hkey ▸ List.mem_map_of_mem he) (h.claims e' he').1
  · exact absurd (hkey ▸ List.mem_map_of_mem he') (h.claims e he).1
  · have hitem := (h.claims e he).2.1
    rw [hkey, (h.claims e' he').2.1] at hitem
    exact (Option.some.inj hitem).symm

/-- A key of the output that no declared key has written is claimed again. -/
theorem claims_again (h : Written t m p ws claimed) {key : Value}
    (hkey : key ∈ Entries.keys p.output) (hnot : key ∉ Entries.keys ws) :
    ∃ e ∈ claimed, e.1 = key ∧ offer (takeKey t.patterns) p.output key = .ok (some e) := by
  rw [h.output, Entries.mem_keys_ofList, Entries.keys, List.map_append, List.mem_append] at hkey
  obtain ⟨e, he, rfl⟩ := List.mem_map.mp (hkey.resolve_left hnot)
  have hget : Entries.get? e.1 p.output = some e.2 :=
    h.includes e (List.mem_append_right _ he)
  exact ⟨e, he, rfl, by simp [offer, hget, (h.claims e he).2.2]⟩

/-- The entries of the declared keys with those that are claimed again are the whole output. -/
theorem rebuilt (h : Written t m p ws claimed) :
    Entries.ofList (ws ++ (((Progress.start p.output).enter ws).unhandled.filterMap
      (claimedItem? (takeKey t.patterns) p.output))) = p.output := by
  obtain ⟨hws, hclaims⟩ := List.forall_mem_append.mp h.includes
  refine Entries.ofList_eq_of_includes ?_ (List.forall_mem_append.mpr ⟨hws, ?_⟩) ?_
  · rw [h.output]
    exact Entries.ascending_ofList _
  · intro e he
    obtain ⟨key, hkey, hitem⟩ := List.mem_filterMap.mp he
    obtain ⟨hmem, hnot⟩ := List.mem_filter.mp hkey
    obtain ⟨e', he', -, ho⟩ := h.claims_again hmem (by simpa using hnot)
    obtain rfl : e' = e := by simpa [claimedItem?, ho] using hitem
    exact hclaims e' he'
  · intro key hkey
    rw [Entries.keys, List.map_append, List.mem_append]
    by_cases hmem : key ∈ Entries.keys ws
    · exact .inl hmem
    · obtain ⟨e, -, rfl, ho⟩ := h.claims_again hkey hmem
      refine .inr (List.mem_map_of_mem
        (List.mem_filterMap.mpr ⟨e.1, ?_, by simp [claimedItem?, ho]⟩))
      exact List.mem_filter.mpr ⟨hkey, by simpa using hmem⟩

/-- A run on the output ends well and gives the output. -/
theorem run_output (h : Written t m p ws claimed) (htests : ∀ r ∈ t.post, r.IsTest) :
    ∃ q, t.run t.unhandledOk p.output (.start p.output) = .ok (none, q) ∧ q.output = p.output := by
  set b := (Progress.start p.output).enter ws
  set items := b.unhandled.filterMap (claimedItem? (takeKey t.patterns) p.output)
  have hwrite : WriteAll t.keys p.output (.start p.output) b :=
    h.again (List.forall_mem_append.mp h.includes).1 rfl
  have hclaim : claimKeys (takeKey t.patterns) p.output b.unhandled ⟨b, []⟩ =
      .ok ⟨(b.claimAll b.unhandled).putAll items, []⟩ := by
    refine claimKeys_all (fun key hkey => ?_) b
    obtain ⟨hmem, hnot⟩ := List.mem_filter.mp hkey
    obtain ⟨e, -, -, ho⟩ := h.claims_again hmem (by simpa using hnot)
    exact ⟨e, ho⟩
  have houtput : ((b.claimAll b.unhandled).putAll items).output = p.output := by
    refine Eq.trans ?_ h.rebuilt
    rw [Entries.ofList_eq_insertAll, Entries.insertAll_append]
    rfl
  refine ⟨_, (Mapping.run_ends_iff htests).mpr ⟨b, hwrite, hclaim, .inr ?_, ?_⟩, houtput⟩
  · exact List.filter_eq_nil_iff.mpr fun key hkey => by simpa using hkey
  · rw [houtput]
    exact h.met

end Written

theorem Rule.stable_mapping (hkeys : Replays t.names (WriteAll t.keys))
    (hpatterns : ∀ r ∈ t.patterns, r.pattern.IsAtom ∧ r.type.Stable)
    (htests : ∀ r ∈ t.post, r.IsTest) : (Rule.mapping t).Stable := by
  intro v c hc
  obtain ⟨m, p, rfl, hrun, rfl⟩ := Rule.mapping_check_ok_iff.mp hc
  obtain ⟨ws, claimed, hwritten⟩ := written_of_run hkeys hpatterns htests hrun
  obtain ⟨q, hagain, hq⟩ := hwritten.run_output htests
  exact Rule.mapping_check_ok_iff.mpr ⟨p.output, q, rfl, hagain, by rw [hq]⟩

theorem Rule.keepsSet_mapping (hdeclares : t.unhandledOk = true → t.keys ≠ []) :
    (Rule.mapping t).KeepsSet := by
  intro v c u hu hc hunset
  obtain ⟨m, p, rfl, hrun, rfl⟩ := Rule.mapping_check_ok_iff.mp hc
  have hempty : p.output = [] := hu.mapping hunset
  rw [Mapping.eq_nil_of_run hdeclares hrun hempty]
  rwa [hempty] at hunset

end Tables

end Conformance
