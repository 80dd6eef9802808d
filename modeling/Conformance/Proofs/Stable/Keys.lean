import Conformance.Proofs.Post.Steps
import Conformance.Proofs.Stable.Replay

/-! # Declared keys on what they have written

A key with a type holds a checked value the second time. A conditional key holds the value that has
selected its case, which may have been the default for an absent key.
-/

namespace Conformance

open Value (Entries)

/-! ## Types -/

theorem KeyRule.writes_type_iff {k : Value} {b : Base} {m : Entries} {p p' : Progress}
    (hp : p.Within m) :
    (typed (k, b)).Writes m p p' ↔
      ∃ w, b.provided? (Entries.get? k m) = some (.ok w) ∧ p' = (p.claim k).put k w := by
  simp only [Writes, verdict_typed hp, Option.map_eq_some_iff, Outcome.settle_ok_iff]
  constructor
  · rintro ⟨w, _, ⟨o, ho, rfl, rfl⟩, rfl⟩
    exact ⟨w, ho, rfl⟩
  · rintro ⟨w, ho, rfl⟩
    exact ⟨w, _, ⟨_, ho, rfl, rfl⟩, rfl⟩

theorem Base.Stable.check_provided {b : Base} (hb : b.Stable) {v? : Option Value} {w : Value}
    (h : b.provided? v? = some (.ok w)) : b.check w = .ok w := by
  cases v? with
  | some v => exact hb (Option.some.inj h)
  | none =>
    cases b with
    | atom a => cases h
    | spec s =>
      simp only [provided?, fallback?] at h
      split at h
      · exact hb (v := s.defaultValue) (Option.some.inj h)
      · cases h

theorem KeyRule.replays_type {k : Value} {b : Base} (hb : b.Stable) :
    Replays [k] (⟨k, .type b⟩ : KeyRule).Writes := by
  intro m p p' hp h
  obtain ⟨w, hw, rfl⟩ := (writes_type_iff hp).mp h
  refine ⟨[(k, w)], ?_, List.nodup_singleton _, List.Subset.refl _, fun out q hout _ => ?_⟩
  · rw [Progress.put_eq_putAll, Progress.claim_eq_claimAll]
    rfl
  · have hk : Entries.get? k out = some w := hout (k, w) List.mem_cons_self
    refine ⟨w, q.claim k, ?_, ?_⟩
    · simp [verdict?, hk, Slot.take, hb.check_provided hw, Outcome.settle]
    · rw [Progress.put_eq_putAll, Progress.claim_eq_claimAll]
      rfl

/-! ## Conditionals -/

theorem runCase_eq_none_iff {cases : List Case} {v : Value} {m : Entries} {p : Progress} :
    runCase cases v m p = none ↔ v ∉ cases.map Case.value := by
  induction cases with
  | nil => simp [runCase]
  | cons c rest ih =>
    obtain ⟨value, settings, mapping⟩ := c
    by_cases hv : v = value
    · simp [runCase, hv]
    · simp [runCase, hv, ih]

/-- The case of a value has been applied, or there is none and nothing is done. -/
def Selects (cases : List Case) (v : Value) (m : Entries) (p p' : Progress) : Prop :=
  runCase cases v m p = some (.ok (none, p')) ∨ (v ∉ cases.map Case.value ∧ p' = p)

theorem replays_selects {cases : List Case} {v : Value}
    (h : Replays (caseNames cases) fun m p p' => runCase cases v m p = some (.ok (none, p'))) :
    Replays (caseNames cases) (Selects cases v) := by
  rintro m p p' hp (hcase | ⟨hnone, rfl⟩)
  · obtain ⟨ws, hp', hnodup, hkeys, hagain⟩ := h hp hcase
    exact ⟨ws, hp', hnodup, hkeys, fun _ _ hout hq => .inl (hagain hout hq)⟩
  · refine ⟨[], (Progress.enter_nil _).symm, List.nodup_nil, List.nil_subset _, fun _ q _ _ => ?_⟩
    exact .inr ⟨hnone, Progress.enter_nil q⟩

namespace Conditional

variable {cases : List Case} {optional applyDefaultSpec : Bool} {default v w : Value} {m : Entries}
  {p after : Progress}

/-- Only the default of an optional conditional may be no case. -/
theorem selects_of_take
    (h : take m p ⟨cases, optional, default, applyDefaultSpec⟩ v = .ok (.ok w, after)) :
    w = v ∧ Selects cases w m p after ∧
      (w ∉ cases.map Case.value → optional = true ∧ w = default) := by
  simp only [take] at h
  rcases hc : runCase cases v m p with _ | (d | ⟨_ | e, q⟩)
  · have hnot := runCase_eq_none_iff.mp hc
    simp only [hc] at h
    by_cases hopt : (optional && v == default) = true
    · obtain ⟨ho, hd⟩ := Bool.and_eq_true_iff.mp hopt
      obtain rfl : v = default := eq_of_beq hd
      rw [if_pos hopt, hc, ite_self] at h
      cases h
      exact ⟨rfl, .inr ⟨hnot, rfl⟩, fun _ => ⟨ho, rfl⟩⟩
    · rw [if_neg hopt] at h
      cases h
  · simp [hc, Run.asCase] at h
  · simp only [hc, Run.asCase] at h
    cases h
    refine ⟨rfl, .inl hc, fun hnot => ?_⟩
    rw [runCase_eq_none_iff.mpr hnot] at hc
    cases hc
  · simp [hc, Run.asCase] at h

theorem take_of_selects (h : Selects cases w m p after)
    (hd : w ∉ cases.map Case.value → optional = true ∧ w = default) :
    take m p ⟨cases, optional, default, applyDefaultSpec⟩ w = .ok (.ok w, after) := by
  simp only [take]
  rcases h with hc | ⟨hnot, rfl⟩
  · rw [hc]
    rfl
  · obtain ⟨ho, rfl⟩ := hd hnot
    have hc := runCase_eq_none_iff (m := m) (p := after).mpr hnot
    simp [hc, ho, defaultVerdict]

theorem selects_of_fill
    (hd : optional = true → applyDefaultSpec = false → default ∉ cases.map Case.value)
    (h : fill? m p ⟨cases, optional, default, applyDefaultSpec⟩ = some (.ok (.ok w, after))) :
    optional = true ∧ w = default ∧ Selects cases w m p after := by
  cases optional with
  | false => cases h
  | true =>
    simp only [fill?, if_true, Option.some.injEq] at h
    cases applyDefaultSpec with
    | false =>
      cases h
      exact ⟨rfl, rfl, .inr ⟨hd rfl rfl, rfl⟩⟩
    | true =>
      simp only [if_true] at h
      rcases hc : runCase cases default m p with _ | (d | ⟨_ | e, q⟩)
      · rw [hc] at h
        cases h
        exact ⟨rfl, rfl, .inr ⟨runCase_eq_none_iff.mp hc, rfl⟩⟩
      · simp [hc, defaultVerdict] at h
      · rw [hc] at h
        cases h
        exact ⟨rfl, rfl, .inl hc⟩
      · simp [hc, defaultVerdict] at h

end Conditional

theorem KeyRule.replays_conditional {k default : Value} {cases : List Case}
    {optional applyDefaultSpec : Bool}
    (hcases : ∀ v,
      Replays (caseNames cases) fun m p p' => runCase cases v m p = some (.ok (none, p')))
    (hk : k ∉ caseNames cases)
    (hd : optional = true → applyDefaultSpec = false → default ∉ cases.map Case.value) :
    Replays (k :: caseNames cases)
      (⟨k, .conditional ⟨cases, optional, default, applyDefaultSpec⟩⟩ : KeyRule).Writes := by
  rintro m p p' hp ⟨w, after, hv, rfl⟩
  have hselects : Selects cases w m (p.claim k) after ∧
      (w ∉ cases.map Case.value → optional = true ∧ w = default) := by
    simp only [verdict?] at hv
    cases hkey : Entries.get? k m with
    | some v =>
      rw [hkey] at hv
      obtain ⟨rfl, h⟩ := Conditional.selects_of_take (Option.some.inj hv)
      exact h
    | none =>
      rw [hkey] at hv
      obtain ⟨ho, rfl, h⟩ := Conditional.selects_of_fill hd hv
      rw [Progress.claim_of_absent hp hkey]
      exact ⟨h, fun _ => ⟨ho, rfl⟩⟩
  obtain ⟨hselects, hdefault⟩ := hselects
  have hclaimed : (p.claim k).Within m := by
    rw [Progress.claim_eq_claimAll]
    exact hp.claimAll _
  obtain ⟨ws, rfl, hnodup, hsub, hagain⟩ := replays_selects (hcases w) hclaimed hselects
  have hkeys : Entries.keys (ws ++ [(k, w)]) = Entries.keys ws ++ [k] := List.map_append
  refine ⟨ws ++ [(k, w)], Progress.put_enter_claim p k w ws, ?_, ?_, fun out q hout hq => ?_⟩
  · rw [hkeys]
    exact hnodup.append (List.nodup_singleton k) fun _ h₁ h₂ =>
      hk (hsub (List.mem_singleton.mp h₂ ▸ h₁))
  · rw [hkeys]
    exact List.append_subset.mpr ⟨List.subset_cons_of_subset _ hsub,
      List.cons_subset.mpr ⟨List.mem_cons_self, List.nil_subset _⟩⟩
  · obtain ⟨hws, hkw⟩ := List.forall_mem_append.mp hout
    have hget : Entries.get? k out = some w := hkw (k, w) List.mem_cons_self
    have htake : Conditional.take out (q.claim k) ⟨cases, optional, default, applyDefaultSpec⟩ w =
        .ok (.ok w, (q.claim k).enter ws) :=
      Conditional.take_of_selects (hagain hws hq) hdefault
    refine ⟨w, _, ?_, (Progress.put_enter_claim q k w ws).symm⟩
    simp [verdict?, hget, Slot.take, htake]

/-! ## Tables -/

theorem Post.applyAll_snd {post : List Post} (h : ∀ r ∈ post, r.IsTest) (m : Entries) :
    (applyAll post m).2 = m := by
  induction post with
  | nil => rfl
  | cons r rest ih =>
    obtain ⟨hr, hrest⟩ := List.forall_mem_cons.mp h
    obtain ⟨holds, message, htest⟩ := hr
    cases ha : r.apply m with
    | ok m' =>
      obtain ⟨vs, -, rfl | ⟨compute, gate, haction, -⟩⟩ := apply_ok_cases ha
      · simp only [applyAll, ha]
        exact ih hrest
      · rw [htest] at haction
        cases haction
    | error text =>
      simp only [applyAll, ha]
      exact ih hrest

def Post.Met (post : List Post) (output : Entries) : Prop := (applyAll post output).1 = []

theorem Pass.finish_eq_none_iff {p : Pass} {post : List Post} (h : ∀ r ∈ post, r.IsTest)
    {p' : Progress} :
    p.finish post = (none, p') ↔
      p.failures = [] ∧ p' = p.progress ∧ Post.Met post p.progress.output := by
  rw [finish_none_iff, Post.applyAll_snd h, Post.Met, and_comm (b := p' = p.progress)]

theorem Pass.failures_of_finish {p : Pass} {post : List Post} {p' : Progress}
    (h : p.finish post = (none, p')) : p.failures = [] := (finish_none_iff.mp h).1

theorem Pass.failures_sealed {p : Pass} {unhandledOk : Bool} {keys : List KeyRule}
    {patterns : List PatternRule} (h : (p.sealed unhandledOk keys patterns).failures = []) :
    p.failures = [] ∧ (unhandledOk = true ∨ p.progress.unhandled = []) := by
  rw [sealed_eq, List.append_eq_nil_iff] at h
  obtain ⟨hp, hleft⟩ := h
  refine ⟨hp, ?_⟩
  cases unhandledOk with
  | true => exact .inl rfl
  | false => exact .inr (by simpa [leftoverFailures] using hleft)

theorem Pass.sealed_of_allowed {p : Pass} {unhandledOk : Bool} {keys : List KeyRule}
    {patterns : List PatternRule} (h : unhandledOk = true ∨ p.progress.unhandled = []) :
    p.sealed unhandledOk keys patterns = p := by
  rcases h with h | h <;> simp [Pass.sealed, h]

/-- A run accepts if no key fails and nothing is left over that must not be. -/
theorem Mapping.run_accepts_iff {t : Mapping} {unhandledOk : Bool} {m : Entries}
    {p p' : Progress} :
    t.run unhandledOk m p = .ok (none, p') ↔
      ∃ a b, WriteAll t.keys m p a ∧
        claimKeys (takeKey t.patterns) m a.unhandled ⟨a, []⟩ = .ok ⟨b, []⟩ ∧
        (unhandledOk = true ∨ b.unhandled = []) ∧
        (⟨b, []⟩ : Pass).finish t.post = (none, p') := by
  rw [Mapping.run_ok_iff]
  constructor
  · rintro ⟨⟨a, fs⟩, ⟨b, gs⟩, ha, hb, hfinish⟩
    obtain ⟨hgs, hallowed⟩ := Pass.failures_sealed (Pass.failures_of_finish hfinish)
    rw [Pass.sealed_of_allowed hallowed] at hfinish
    obtain rfl : gs = [] := hgs
    have hfs : fs = [] := by
      rw [claimKeys_eq (offer_of_claimKeys hb)] at hb
      simp only [Except.ok.injEq, Pass.mk.injEq, List.append_eq_nil_iff] at hb
      exact hb.2.1
    subst hfs
    exact ⟨a, b, ha, hb, hallowed, hfinish⟩
  · rintro ⟨a, b, ha, hb, hallowed, hfinish⟩
    refine ⟨_, _, ha, hb, ?_⟩
    rw [Pass.sealed_of_allowed hallowed]
    exact hfinish

theorem Mapping.run_ends_iff {t : Mapping} {unhandledOk : Bool} {m : Entries} {p p' : Progress}
    (htests : ∀ r ∈ t.post, r.IsTest) :
    t.run unhandledOk m p = .ok (none, p') ↔
      ∃ a, WriteAll t.keys m p a ∧
        claimKeys (takeKey t.patterns) m a.unhandled ⟨a, []⟩ = .ok ⟨p', []⟩ ∧
        (unhandledOk = true ∨ p'.unhandled = []) ∧ Post.Met t.post p'.output := by
  rw [run_accepts_iff]
  constructor
  · rintro ⟨a, b, hwrite, hclaim, hleft, hfinish⟩
    obtain ⟨-, rfl, hmet⟩ := (Pass.finish_eq_none_iff htests).mp hfinish
    exact ⟨a, hwrite, hclaim, hleft, hmet⟩
  · rintro ⟨a, hwrite, hclaim, hleft, hmet⟩
    exact ⟨a, p', hwrite, hclaim, hleft, (Pass.finish_eq_none_iff htests).mpr ⟨rfl, rfl, hmet⟩⟩

/-- Without patterns a case only writes its keys. -/
theorem claimKeys_nil (m : Entries) (keys : List Value) (p : Pass) :
    claimKeys (takeKey []) m keys p = .ok p := by
  induction keys with
  | nil => rfl
  | cons key rest ih =>
    simp only [claimKeys, takeKey]
    cases Entries.get? key m <;> exact ih

theorem Mapping.replays {t : Mapping} (hkeys : Replays t.names (WriteAll t.keys))
    (hpatterns : t.patterns = []) (htests : ∀ r ∈ t.post, r.IsTest) :
    Replays t.names fun m p p' => t.run true m p = .ok (none, p') := by
  refine (hkeys.guard (Post.Met t.post)).of_iff (List.Subset.refl _) fun m p p' => ?_
  rw [run_ends_iff htests, hpatterns]
  simp only [claimKeys_nil, Except.ok.injEq, Pass.mk.injEq, and_true, true_or, true_and]
  constructor
  · rintro ⟨hwrite, hmet⟩
    exact ⟨p', hwrite, rfl, hmet⟩
  · rintro ⟨a, hwrite, rfl, hmet⟩
    exact ⟨hwrite, hmet⟩

theorem replays_cases_nil (v : Value) :
    Replays (caseNames []) fun m p p' => runCase [] v m p = some (.ok (none, p')) := by
  rintro m p p' - h
  cases h

theorem replays_cases_cons {value v : Value} {settings : Settings} {mapping : Mapping}
    {rest : List Case}
    (hmapping : Replays mapping.names fun m p p' => mapping.run true m p = .ok (none, p'))
    (hrest : Replays (caseNames rest) fun m p p' => runCase rest v m p = some (.ok (none, p'))) :
    Replays (caseNames (⟨value, settings, mapping⟩ :: rest)) fun m p p' =>
      runCase (⟨value, settings, mapping⟩ :: rest) v m p = some (.ok (none, p')) := by
  simp only [runCase, caseNames]
  by_cases hv : v = value
  · simp only [if_pos hv, Option.some.injEq]
    exact hmapping.of_iff (List.subset_append_left _ _) fun _ _ _ => Iff.rfl
  · simp only [if_neg hv]
    exact hrest.of_iff (List.subset_append_right _ _) fun _ _ _ => Iff.rfl

theorem replays_keys_nil : Replays (keyNames []) (WriteAll []) :=
  Replays.nil.of_iff (List.Subset.refl _) fun _ p p' => by simp [WriteAll, runKeys, eq_comm]

theorem replays_keys_cons {key : Value} {slot : Slot} {rest : List KeyRule}
    (hkey : Replays (key :: slot.names) (⟨key, slot⟩ : KeyRule).Writes)
    (hrest : Replays (keyNames rest) (WriteAll rest))
    (hdisjoint : (key :: slot.names).Disjoint (keyNames rest)) :
    Replays (keyNames (⟨key, slot⟩ :: rest)) (WriteAll (⟨key, slot⟩ :: rest)) :=
  (hkey.comp hrest hdisjoint).of_iff (List.Subset.refl _) fun _ _ _ => writeAll_cons.symm

end Conformance
