import Conformance.Proofs.Mapping.Pass

/-! # Where the failures of a mapping come from

A failure is noted by a declared key or by a key that a pattern has taken. All others, about keys
left over and by post rules, are about the mapping as a whole.
-/

namespace Conformance

open Value (Entries)

inductive KeyRule.Reports (m : Entries) (r : KeyRule) : Failure → Prop
  | missing {p} : r.verdict? m p = none →
      Reports m r (.leaf (some (.key r.key)) ("Missing required mapping key " ++ r.key.render))
  | refused {p e after} : r.verdict? m p = some (.ok (.error e, after)) →
      Reports m r (.caused (some (.key r.key)) (r.context m) e)

theorem KeyRule.Reports.location {m : Entries} {r : KeyRule} {f : Failure} (h : r.Reports m f) :
    f.location = some (.key r.key) := by
  cases h <;> rfl

/-- A key with a type reports what becomes of its value. -/
theorem KeyRule.reports_typed {m : Entries} {e : Value × Base} {f : Failure}
    (h : (typed e).Reports m f) : declaredFailure? m e = some f := by
  unfold declaredFailure?
  cases h with
  | @missing p hnone =>
    rw [verdict_type, Option.map_eq_none_iff] at hnone
    rw [hnone]
    rfl
  | @refused p cause after hrefused =>
    rw [verdict_type, Option.map_eq_some_iff] at hrefused
    obtain ⟨o, ho, hsettle⟩ := hrefused
    cases o with
    | invalid cause' =>
      cases hsettle
      rw [ho]
      rfl
    | ok v => cases hsettle
    | defect d => cases hsettle

inductive Mapping.Reports (m : Entries) (t : Mapping) : Failure → Prop
  | declared {r f} : r ∈ t.keys → r.Reports m f → Reports m t f
  | claimed {key f} : claimedFailure? (takeKey t.patterns) m key = some f → Reports m t f
  | general (message) : Reports m t (.leaf none message)

/-- A pattern that has taken a key refuses the value under the key. -/
theorem claimedFailure_eq_some_iff {take : Value → Value → Outcome (Option (Value × Value))}
    {m : Entries} {key : Value} {f : Failure} :
    claimedFailure? take m key = some f ↔ ∃ v e, Entries.get? key m = some v ∧
      take key v = .invalid e ∧ f = .caused (some (.key key))
        ("Value for key " ++ key.render ++ " does not conform with spec") e := by
  simp only [claimedFailure?, offer]
  cases Entries.get? key m with
  | none => simp
  | some v => cases h : take key v <;> simp [h, eq_comm]

/-! ## One key and all keys -/

section Passes

variable {m : Entries} {r : KeyRule} {keys : List KeyRule} {p q : Pass}

theorem KeyRule.reported_of_step (h : r.step m p = .ok q) :
    ∃ added, q.failures = p.failures ++ added ∧ ∀ f ∈ added, r.Reports m f := by
  rw [step] at h
  rcases hv : r.verdict? m p.progress with _ | (d | ⟨e | w, after⟩) <;> rw [hv] at h <;> cases h
  · exact ⟨_, rfl, List.forall_mem_singleton.mpr (.missing hv)⟩
  · exact ⟨_, rfl, List.forall_mem_singleton.mpr (.refused hv)⟩
  · exact ⟨[], (List.append_nil _).symm, List.forall_mem_nil _⟩

theorem reported_of_runKeys (h : runKeys keys m p = .ok q) :
    ∃ added, q.failures = p.failures ++ added ∧ ∀ f ∈ added, ∃ r ∈ keys, r.Reports m f := by
  induction keys generalizing p with
  | nil =>
    cases h
    exact ⟨[], (List.append_nil _).symm, List.forall_mem_nil _⟩
  | cons r rest ih =>
    obtain ⟨a, ha, hrest⟩ := runKeys_cons_ok.mp h
    obtain ⟨first, hfirst, hr⟩ := KeyRule.reported_of_step ha
    obtain ⟨later, hlater, hkeys⟩ := ih hrest
    refine ⟨first ++ later, ?_, List.forall_mem_append.mpr ⟨fun f hf => ?_, fun f hf => ?_⟩⟩
    · rw [hlater, hfirst, List.append_assoc]
    · exact ⟨r, List.mem_cons_self, hr f hf⟩
    · obtain ⟨s, hs, hsf⟩ := hkeys f hf
      exact ⟨s, List.mem_cons_of_mem r hs, hsf⟩

end Passes

/-! ## The whole table -/

/-- Post rules do not say where they fail. -/
theorem Post.leaf_of_mem_applyAll {post : List Post} {m : Entries} :
    ∀ f ∈ (applyAll post m).1, ∃ message, f = .leaf none message := by
  induction post generalizing m with
  | nil => exact List.forall_mem_nil _
  | cons p rest ih =>
    cases hp : p.apply m with
    | ok m' =>
      simp only [applyAll, hp]
      exact ih
    | error text =>
      simp only [applyAll, hp]
      exact List.forall_mem_cons.mpr ⟨⟨text, rfl⟩, ih⟩

theorem mem_leftoverFailures {unhandledOk : Bool} {unhandled : List Value} {keys : List KeyRule}
    {patterns : List PatternRule} {f : Failure}
    (h : f ∈ leftoverFailures unhandledOk unhandled keys patterns) :
    f = unhandledFailure unhandled keys patterns := by
  unfold leftoverFailures at h
  split at h
  · exact absurd h List.not_mem_nil
  · exact List.mem_singleton.mp h

theorem Pass.reported_of_finish {a : Pass} {post : List Post} {e : Invalid} {q : Progress}
    (h : a.finish post = (some e, q)) :
    ∀ f ∈ e.failures, f ∈ a.failures ∨ ∃ message, f = .leaf none message := by
  obtain ⟨progress, failures⟩ := a
  cases failures with
  | cons f rest =>
    cases h
    exact fun g hg => .inl hg
  | nil =>
    simp only [finish] at h
    cases happly : (Post.applyAll post progress.output).1 with
    | nil => simp [happly] at h
    | cons f rest =>
      rw [happly] at h
      cases h
      have hrules : ∀ f ∈ (Post.applyAll post progress.output).1,
          ∃ message, f = .leaf none message := Post.leaf_of_mem_applyAll
      rw [happly] at hrules
      exact fun g hg => .inr (hrules g hg)

section Runs

variable {t : Mapping} {unhandledOk : Bool} {m : Entries} {p q : Progress}

theorem Mapping.reported_of_sealed {a b : Pass} (ha : runKeys t.keys m ⟨p, []⟩ = .ok a)
    (hb : claimKeys (takeKey t.patterns) m a.progress.unhandled a = .ok b) :
    ∀ f ∈ (b.sealed unhandledOk t.keys t.patterns).failures, t.Reports m f := by
  obtain ⟨added, hadded, hreports⟩ := reported_of_runKeys ha
  rw [claimKeys_eq (offer_of_claimKeys hb)] at hb
  cases hb
  intro f hf
  rw [Pass.sealed_eq, hadded] at hf
  rcases List.mem_append.mp hf with hf | hf
  · rcases List.mem_append.mp hf with hf | hf
    · obtain ⟨r, hr, hrf⟩ := hreports f hf
      exact .declared hr hrf
    · obtain ⟨key, -, hkey⟩ := List.mem_filterMap.mp hf
      exact .claimed hkey
  · rw [mem_leftoverFailures hf]
    exact .general _

/-- An error of a run has no failures but those that the table can report. -/
theorem Mapping.reported_of_run {e : Invalid} (h : t.run unhandledOk m p = .ok (some e, q)) :
    ∀ f ∈ e.failures, t.Reports m f := by
  obtain ⟨a, b, ha, hb, hfinish⟩ := run_ok_iff.mp h
  intro f hf
  rcases Pass.reported_of_finish hfinish f hf with hf | ⟨message, rfl⟩
  · exact reported_of_sealed ha hb f hf
  · exact .general message

end Runs

end Conformance
