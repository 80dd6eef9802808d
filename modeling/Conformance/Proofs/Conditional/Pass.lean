import Conformance.Proofs.Conditional.Footprint

/-! # What is known of every pass

Since a pass has an effect, neither the defect on which it breaks off nor the keys that it claims
depend on the progress with which it begins.
-/

namespace Conformance

open Value (Entries)

namespace Effect

variable {e : Effect (List Failure)} {p q : Pass} {d : Defect}

theorem onPass_ok_iff :
    e.onPass p = .ok q ↔ e.broken = .ok () ∧
      q = ⟨(p.progress.claimAll e.claims).putAll (e.act p.progress.output).2,
        p.failures ++ (e.act p.progress.output).1⟩ := by
  rw [onPass, on]
  cases e.broken <;> simp [Except.map, eq_comm]

theorem onPass_ends_iff {a b : Progress} :
    e.onPass ⟨a, []⟩ = .ok ⟨b, []⟩ ↔ e.broken = .ok () ∧ (e.act a.output).1 = [] ∧
      b = (a.claimAll e.claims).putAll (e.act a.output).2 := by
  rw [onPass_ok_iff, Pass.mk.injEq, List.nil_append]
  exact and_congr_right' (and_comm.trans (and_congr_left' eq_comm))

theorem onPass_error_iff : e.onPass p = .error d ↔ e.broken = .error d := by
  rw [onPass, on]
  cases e.broken <;> simp [Except.map]

end Effect

section Passes

variable {m : Entries} {keys : List KeyRule} {p q : Pass} {d : Defect}

theorem unhandled_of_runKeys (hkeys : Patternless keys) (hp : p.progress.Within m)
    (h : runKeys keys m p = .ok q) :
    q.progress.unhandled = p.progress.unhandled.filter (· ∉ appliedNames m keys) := by
  obtain ⟨e, hclaims, -, hrun⟩ := footprint_of_patternless (m := m) hkeys
  obtain ⟨-, rfl⟩ := Effect.onPass_ok_iff.mp (hrun p hp ▸ h)
  rw [← hclaims]
  rfl

theorem within_of_runKeys (hkeys : Patternless keys) (hp : p.progress.Within m)
    (h : runKeys keys m p = .ok q) : q.progress.Within m := by
  intro k hk
  rw [unhandled_of_runKeys hkeys hp h] at hk
  exact hp k (List.mem_filter.mp hk).1

theorem within_of_writeAll (hkeys : Patternless keys) {a b : Progress} (ha : a.Within m)
    (h : WriteAll keys m a b) : b.Within m :=
  within_of_runKeys hkeys (p := ⟨a, []⟩) ha h

def Pass.claim (k : Value) (q : Pass) : Pass := ⟨q.progress.claim k, q.failures⟩

/-- A key may as well be claimed when the pass is over. -/
theorem runKeys_claim (hkeys : Patternless keys) (hp : p.progress.Within m) (k : Value) :
    runKeys keys m (p.claim k) = (runKeys keys m p).map (Pass.claim k) := by
  obtain ⟨e, -, -, hrun⟩ := footprint_of_patternless (m := m) hkeys
  have hcomm : (p.progress.unhandled.filter (· ∉ [k])).filter (· ∉ e.claims) =
      (p.progress.unhandled.filter (· ∉ e.claims)).filter (· ∉ [k]) := List.filter_comm _ _ _
  rw [hrun (p.claim k) (hp.claim k), hrun p hp, Effect.onPass, Effect.onPass, Effect.on, Effect.on]
  cases e.broken with
  | error d => rfl
  | ok u =>
    simp only [Except.map, Pass.claim, Progress.claim_eq_claimAll, Progress.claimAll,
      Progress.putAll, hcomm]

theorem writeAll_claim_iff (hkeys : Patternless keys) {a b : Progress} (ha : a.Within m)
    (k : Value) : WriteAll keys m (a.claim k) b ↔ ∃ b', WriteAll keys m a b' ∧ b = b'.claim k := by
  have hclaim : runKeys keys m ⟨a.claim k, []⟩ = (runKeys keys m ⟨a, []⟩).map (Pass.claim k) :=
    runKeys_claim (p := ⟨a, []⟩) hkeys ha k
  rw [WriteAll, hclaim]
  constructor
  · intro h
    cases hrun : runKeys keys m ⟨a, []⟩ with
    | error d =>
      rw [hrun] at h
      cases h
    | ok q =>
      rw [hrun] at h
      obtain ⟨progress, failures⟩ := q
      cases h
      exact ⟨progress, hrun, rfl⟩
  · rintro ⟨b', hb', rfl⟩
    rw [WriteAll] at hb'
    rw [hb']
    rfl

/-! ## The defect of a pass -/

def keyDefect? (m : Entries) (keys : List KeyRule) : Option Defect :=
  match runKeys keys m ⟨.start m, []⟩ with
  | .ok _ => none
  | .error d => some d

theorem keyDefect?_eq_some_iff :
    keyDefect? m keys = some d ↔ runKeys keys m ⟨.start m, []⟩ = .error d := by
  unfold keyDefect?
  cases runKeys keys m ⟨.start m, []⟩ <;> simp

theorem keyDefect?_eq_none_iff :
    keyDefect? m keys = none ↔ ∃ q, runKeys keys m ⟨.start m, []⟩ = .ok q := by
  unfold keyDefect?
  cases runKeys keys m ⟨.start m, []⟩ <;> simp

theorem runKeys_error_iff (hkeys : Patternless keys) (hp : p.progress.Within m) :
    runKeys keys m p = .error d ↔ keyDefect? m keys = some d := by
  obtain ⟨e, -, -, hrun⟩ := footprint_of_patternless (m := m) hkeys
  rw [keyDefect?_eq_some_iff, hrun p hp, hrun ⟨.start m, []⟩ (Progress.within_start m),
    Effect.onPass_error_iff, Effect.onPass_error_iff]

theorem Patternless.append_iff {xs ys : List KeyRule} :
    Patternless (xs ++ ys) ↔ Patternless xs ∧ Patternless ys := List.forall_mem_append

theorem keyDefect?_append {xs ys : List KeyRule} (hxs : Patternless xs) (hys : Patternless ys) :
    keyDefect? m (xs ++ ys) = (keyDefect? m xs).or (keyDefect? m ys) := by
  have hstart : (⟨.start m, []⟩ : Pass).progress.Within m := Progress.within_start m
  refine Option.ext fun d => ?_
  rw [Option.or_eq_some_iff, keyDefect?_eq_some_iff, runKeys_append]
  cases hx : runKeys xs m ⟨.start m, []⟩ with
  | error e => simp [keyDefect?, hx, Except.bind]
  | ok a =>
    have hnone : keyDefect? m xs = none := keyDefect?_eq_none_iff.mpr ⟨a, hx⟩
    simp only [hnone, Except.bind]
    rw [runKeys_error_iff hys (within_of_runKeys hxs hstart hx)]
    simp

/-- A run breaks off on the defect of its declared keys, or else on one of the patterns. -/
theorem Mapping.run_start_error_iff {t : Mapping} {unhandledOk : Bool}
    (hkeys : Patternless t.keys) :
    t.run unhandledOk m (.start m) = .error d ↔
      keyDefect? m t.keys = some d ∨ keyDefect? m t.keys = none ∧
        claimKeys (takeKey t.patterns) m
          ((Entries.keys m).filter (· ∉ appliedNames m t.keys)) ⟨.start m, []⟩ = .error d := by
  have hstart : (⟨.start m, []⟩ : Pass).progress.Within m := Progress.within_start m
  rw [run_error_iff, keyDefect?_eq_some_iff, keyDefect?_eq_none_iff]
  refine or_congr_right ⟨?_, ?_⟩
  · rintro ⟨a, ha, hclaim⟩
    rw [unhandled_of_runKeys hkeys hstart ha] at hclaim
    exact ⟨⟨a, ha⟩, (claimKeys_error_congr a _).mp hclaim⟩
  · rintro ⟨⟨a, ha⟩, hclaim⟩
    refine ⟨a, ha, (claimKeys_error_congr a ⟨.start m, []⟩).mpr ?_⟩
    rw [unhandled_of_runKeys hkeys hstart ha]
    exact hclaim

end Passes

/-! ## Passes that come to the same -/

section Congruence

variable {settings : Settings} {t t' : Mapping} {m m' : Entries} {out : Value}

/-- Apart from patterns and post rules the check of a mapping only sees how the pass over the
declared keys ends. -/
theorem Spec.check_mapping_congr (required : settings.optional = false)
    (hpatterns : t.patterns = t'.patterns) (hpost : t.post = t'.post)
    (hallowed : t.unhandledOk = t'.unhandledOk)
    (hwrite : ∀ a, WriteAll t.keys m (.start m) a ↔ WriteAll t'.keys m' (.start m') a)
    (hleft : ∀ a, WriteAll t.keys m (.start m) a →
      ∀ k ∈ a.unhandled, Entries.get? k m = Entries.get? k m') :
    (⟨settings, .mapping t⟩ : Spec).check (.map m) = .ok out ↔
      (⟨settings, .mapping t'⟩ : Spec).check (.map m') = .ok out := by
  rw [check_mapping_ok_iff required, check_mapping_ok_iff required]
  refine exists_congr fun p => and_congr_left' ?_
  rw [Mapping.run_accepts_iff, Mapping.run_accepts_iff, hpatterns, hpost, hallowed]
  refine exists_congr fun a => exists_congr fun b => ?_
  constructor
  · rintro ⟨ha, hclaim, hend⟩
    rw [claimKeys_congr (hleft a ha)] at hclaim
    exact ⟨(hwrite a).mp ha, hclaim, hend⟩
  · rintro ⟨ha, hclaim, hend⟩
    have ha' := (hwrite a).mpr ha
    refine ⟨ha', ?_, hend⟩
    rw [claimKeys_congr (hleft a ha')]
    exact hclaim

end Congruence

end Conformance
