import Conformance.Proofs.Conditional.Effect
import Conformance.Proofs.Stable.Keys

/-! # Rules have effects

Each step of a pass has an effect, and so have a pass and the run of a case. The induction goes over
the declared keys and into the tables of their cases.
-/

namespace Conformance

open Value (Entries)

/-! ## Post rules -/

namespace Post

variable {p : Post} {reach : Value → Prop} {o o' : Entries}

def written (p : Post) (o : Entries) : List (Value × Value) :=
  match p.action with
  | .update compute gate =>
    if isOpen gate (p.values o) then [(p.first, compute.run (p.values o))] else []
  | .test _ _ => []

def verdict (p : Post) (o : Entries) : Except String Unit := (p.apply o).map fun _ => ()

theorem apply_eq (p : Post) (o : Entries) :
    p.apply o = (p.verdict o).map fun _ => Entries.insertAll (p.written o) o := by
  obtain ⟨first, others, action⟩ := p
  unfold verdict apply written
  split
  · rfl
  · cases action with
    | update compute gate =>
      dsimp only
      split <;> rfl
    | test holds message =>
      dsimp only
      split <;> rfl

theorem missing_congr (hp : ∀ k ∈ p.refKeys, reach k) (h : Agree reach o o') :
    p.missing o = p.missing o' :=
  List.filter_congr fun k hk => by rw [h k (hp k hk)]

theorem values_congr (hp : ∀ k ∈ p.refKeys, reach k) (h : Agree reach o o') :
    p.values o = p.values o' :=
  List.filterMap_congr fun k hk => h k (hp k hk)

theorem written_congr (hp : ∀ k ∈ p.refKeys, reach k) (h : Agree reach o o') :
    p.written o = p.written o' := by
  unfold written
  rw [values_congr hp h]

theorem verdict_congr (hp : ∀ k ∈ p.refKeys, reach k) (h : Agree reach o o') :
    p.verdict o = p.verdict o' := by
  unfold verdict apply
  rw [missing_congr hp h, values_congr hp h]
  split
  · rfl
  · cases p.action with
    | update compute gate =>
      dsimp only
      split <;> rfl
    | test holds message =>
      dsimp only
      split <;> rfl

theorem reach_written (hp : ∀ k ∈ p.refKeys, reach k) : ∀ x ∈ p.written o, reach x.1 := by
  intro x hx
  unfold written at hx
  split at hx
  · split at hx
    · rw [List.mem_singleton.mp hx]
      exact hp p.first List.mem_cons_self
    · exact absurd hx List.not_mem_nil
  · exact absurd hx List.not_mem_nil

/-- The failures of rules one after the other, and what the rules write. -/
def trace : List Post → Entries → List Failure × List (Value × Value)
  | [], _ => ([], [])
  | p :: rest, o =>
    match p.verdict o with
    | .ok _ =>
      let later := trace rest (Entries.insertAll (p.written o) o)
      (later.1, p.written o ++ later.2)
    | .error text =>
      let later := trace rest o
      (.leaf none text :: later.1, later.2)

theorem applyAll_eq_trace (post : List Post) (o : Entries) :
    applyAll post o = ((trace post o).1, Entries.insertAll (trace post o).2 o) := by
  induction post generalizing o with
  | nil => rfl
  | cons p rest ih =>
    have happly := p.apply_eq o
    cases hv : p.verdict o with
    | ok u =>
      rw [hv] at happly
      simp only [applyAll, trace, happly, hv, Except.map, ih, Entries.insertAll_append]
    | error text =>
      rw [hv] at happly
      simp only [applyAll, trace, happly, hv, Except.map, ih]

theorem trace_congr {post : List Post} (hpost : ∀ p ∈ post, ∀ k ∈ p.refKeys, reach k)
    (h : Agree reach o o') : trace post o = trace post o' := by
  induction post generalizing o o' with
  | nil => rfl
  | cons p rest ih =>
    obtain ⟨hp, hrest⟩ := List.forall_mem_cons.mp hpost
    simp only [trace, verdict_congr hp h, written_congr hp h, ih hrest h,
      ih hrest (h.insertAll (p.written o'))]

theorem reach_trace {post : List Post} (hpost : ∀ p ∈ post, ∀ k ∈ p.refKeys, reach k) :
    ∀ x ∈ (trace post o).2, reach x.1 := by
  induction post generalizing o with
  | nil => exact fun x hx => absurd hx List.not_mem_nil
  | cons p rest ih =>
    obtain ⟨hp, hrest⟩ := List.forall_mem_cons.mp hpost
    intro x hx
    simp only [trace] at hx
    split at hx
    · rcases List.mem_append.mp hx with hx | hx
      · exact reach_written hp x hx
      · exact ih hrest x hx
    · exact ih hrest x hx

end Post

/-! ## The end of a run -/

/-- How a pass with these failures ends, and what its post rules write. -/
def ending (post : List Post) : List Failure → Entries → Option Invalid × List (Value × Value)
  | f :: rest, _ => (some (.aggregate "Does not conform with dict schema" f rest), [])
  | [], o =>
    (match (Post.trace post o).1 with
      | [] => none
      | f :: rest => some (.aggregate "Post processing has failed" f rest), (Post.trace post o).2)

theorem Pass.finish_eq (p : Pass) (post : List Post) :
    p.finish post = ((ending post p.failures p.progress.output).1,
      p.progress.putAll (ending post p.failures p.progress.output).2) := by
  obtain ⟨progress, failures⟩ := p
  cases failures with
  | cons f rest => rfl
  | nil =>
    simp only [finish, ending, Post.applyAll_eq_trace]
    rfl

theorem Mapping.run_of_patternless {t : Mapping} (h : t.patterns = []) (m : Entries)
    (p : Progress) : t.run true m p = (runKeys t.keys m ⟨p, []⟩).map (·.finish t.post) := by
  rw [run_eq, pass, h]
  cases runKeys t.keys m ⟨p, []⟩ with
  | error d => rfl
  | ok a => simp [Except.map, Except.bind, claimKeys_nil, Pass.sealed_eq, leftoverFailures]

/-! ## Footprints -/

section Footprints

variable {α : Type} {m : Entries} {reach : Value → Prop} {claims : List Value}

/-- A run over the mapping has one effect, whatever the progress that it begins with. -/
def Footprint (m : Entries) (reach : Value → Prop) (claims : List Value)
    (f : Progress → Except Defect (α × Progress)) : Prop :=
  ∃ e : Effect α, e.claims = claims ∧ e.Local reach ∧ ∀ p : Progress, p.Within m → f p = e.on p

def StepFootprint (m : Entries) (reach : Value → Prop) (claims : List Value)
    (f : Pass → Except Defect Pass) : Prop :=
  ∃ e : Effect (List Failure), e.claims = claims ∧ e.Local reach ∧
    ∀ p : Pass, p.progress.Within m → f p = e.onPass p

theorem Mapping.run_footprint {t : Mapping} (hpatterns : t.patterns = [])
    (hpost : ∀ p ∈ t.post, ∀ k ∈ p.refKeys, reach k)
    (hkeys : StepFootprint m reach claims (runKeys t.keys m)) :
    Footprint m reach claims (t.run true m) := by
  obtain ⟨e, hclaims, hlocal, hrun⟩ := hkeys
  refine ⟨e.next (ending t.post), hclaims, hlocal.next ?_ ?_, fun p hp => ?_⟩
  · intro failures o o' ho
    cases failures with
    | cons f rest => rfl
    | nil => simp only [ending, Post.trace_congr hpost ho]
  · intro failures o x hx
    cases failures with
    | cons f rest => exact absurd hx List.not_mem_nil
    | nil => exact Post.reach_trace hpost x hx
  · rw [run_of_patternless hpatterns, hrun ⟨p, []⟩ hp, Effect.on_next, Effect.onPass]
    cases e.on p with
    | error d => rfl
    | ok r => simp [Except.map, Pass.finish_eq]

/-! ### Steps -/

namespace KeyRule

variable {r : KeyRule}

/-- The value that is found is written, or the reason why there is none becomes a failure. -/
def recording (m : Entries) (r : KeyRule) :
    Except Invalid Value → Entries → List Failure × List (Value × Value)
  | .ok v, _ => ([], [(r.key, v)])
  | .error e, _ => ([.caused (some (.key r.key)) (r.context m) e], [])

theorem step_footprint_of_verdict {e : Effect (Except Invalid Value)} (hkey : reach r.key)
    (hlocal : e.Local reach) (h : ∀ p : Progress, p.Within m → r.verdict? m p = some (e.on p)) :
    StepFootprint m reach e.claims (r.step m) := by
  refine ⟨e.next (recording m r), rfl, hlocal.next (fun v _ _ _ => ?_) (fun v o x hx => ?_),
    fun p hp => ?_⟩
  · cases v <;> rfl
  · cases v with
    | error err => exact absurd hx List.not_mem_nil
    | ok w =>
      rw [List.mem_singleton.mp hx]
      exact hkey
  · rw [step, h p.progress hp, Effect.onPass, Effect.on_next]
    rcases e.on p.progress with d | ⟨err | w, after⟩
    · rfl
    · rfl
    · simp [Except.map, Pass.record, recording, Progress.put_eq_putAll]

/-- A key that is absent is as good as claimed. -/
theorem step_footprint_of_missing (habsent : Entries.get? r.key m = none)
    (h : ∀ p : Progress, p.Within m → r.verdict? m p = none) :
    StepFootprint m reach [r.key] (r.step m) := by
  let failure : Failure :=
    .leaf (some (.key r.key)) ("Missing required mapping key " ++ r.key.render)
  refine ⟨(Effect.pure [failure]).claim r.key, rfl, (Effect.local_pure _ _).claim _,
    fun p hp => ?_⟩
  rw [step, h p.progress hp, Effect.onPass, Effect.on_claim, Effect.on_pure,
    Progress.claim_of_absent hp habsent]
  rfl

end KeyRule

def Effect.ofOutcome : Outcome Value → Effect (Except Invalid Value)
  | .ok v => .pure (.ok v)
  | .invalid e => .pure (.error e)
  | .defect d => ⟨.error d, [], (Effect.pure (.error default)).act⟩

theorem Effect.local_ofOutcome (o : Outcome Value) (reach : Value → Prop) :
    (ofOutcome o).Local reach := by
  cases o <;> exact ⟨fun _ _ _ => rfl, fun _ _ hx => absurd hx List.not_mem_nil⟩

theorem Effect.claims_ofOutcome (o : Outcome Value) : (ofOutcome o).claims = [] := by
  cases o <;> rfl

theorem Effect.on_ofOutcome (o : Outcome Value) (p : Progress) :
    (ofOutcome o).on p = o.settle p := by
  cases o with
  | ok v => exact on_pure _ p
  | invalid e => exact on_pure _ p
  | defect d => rfl

theorem step_footprint_type {key : Value} {b : Base} (hkey : reach key) :
    StepFootprint m reach [key] ((⟨key, .type b⟩ : KeyRule).step m) := by
  have hverdict : ∀ p : Progress, p.Within m → (⟨key, .type b⟩ : KeyRule).verdict? m p =
      (b.provided? (Entries.get? key m)).map (Outcome.settle (p.claim key)) := fun p hp =>
    KeyRule.verdict_typed (e := (key, b)) hp
  cases ho : b.provided? (Entries.get? key m) with
  | none =>
    have habsent : Entries.get? key m = none := by
      cases hv : Entries.get? key m with
      | none => rfl
      | some v =>
        rw [hv] at ho
        cases ho
    refine KeyRule.step_footprint_of_missing (r := ⟨key, .type b⟩) habsent fun p hp => ?_
    rw [hverdict p hp, ho]
    rfl
  | some o =>
    have hclaims : ((Effect.ofOutcome o).claim key).claims = [key] := by
      simp only [Effect.claim, Effect.claims_ofOutcome]
    rw [← hclaims]
    refine KeyRule.step_footprint_of_verdict hkey ((Effect.local_ofOutcome o reach).claim key)
      fun p hp => ?_
    rw [hverdict p hp, ho, Effect.on_claim, Effect.on_ofOutcome]
    rfl

/-! ### Conditional keys -/

/-- What goes wrong in a case is told with the value that has selected the case. -/
def inCase (v : Value) : Invalid → Invalid :=
  .wrapped ("Does not conform with conditional spec for value " ++ v.render)

namespace Conditional

/-- The verdict on a key that selects no case, or none if the key is absent and must not be. -/
def unselected? (c : Conditional) : Option Value → Option (Except Invalid Value)
  | some v =>
    some (if c.optional && v == c.default then .ok v
      else .error (.simple (mustBe (c.cases.map fun x => x.value.render))))
  | none => if c.optional then some (.ok c.default) else none

def concluded (c : Conditional) : Option Value → Option Invalid → Except Invalid Value
  | some v, none => .ok v
  | some v, some e => .error (inCase v e)
  | none, none => .ok c.default
  | none, some e => .error e

end Conditional

namespace KeyRule

variable {key : Value} {c : Conditional} {x : Case}

theorem verdict_unselected (h : c.selected? (Entries.get? key m) = none) (p : Progress) :
    (⟨key, .conditional c⟩ : KeyRule).verdict? m p =
      (c.unselected? (Entries.get? key m)).map fun w => .ok (w, p.claimPresent m key) := by
  simp only [verdict?, Progress.claimPresent]
  cases hv : Entries.get? key m with
  | some v =>
    have hcase : c.case? v = none := by
      rw [hv] at h
      exact h
    simp only [Slot.take, Conditional.take_of_no_case hcase]
    rfl
  | none =>
    rw [hv] at h
    cases ho : c.optional with
    | false => simp [Slot.fill?, Conditional.fill_of_required ho, Conditional.unselected?, ho]
    | true =>
      simp [Slot.fill?, Conditional.fill_of_optional ho, Conditional.unselected?, ho, h,
        defaultVerdict]

theorem verdict_selected (h : c.selected? (Entries.get? key m) = some x) (p : Progress) :
    (⟨key, .conditional c⟩ : KeyRule).verdict? m p =
      some ((x.mapping.run true m (p.claimPresent m key)).map fun r =>
        (c.concluded (Entries.get? key m) r.1, r.2)) := by
  simp only [verdict?, Progress.claimPresent]
  cases hv : Entries.get? key m with
  | some v =>
    have hcase : c.case? v = some x := by
      rw [hv] at h
      exact h
    simp only [Slot.take, Conditional.take_of_case hcase]
    rcases x.mapping.run true m (p.claim key) with d | ⟨_ | e, after⟩ <;> rfl
  | none =>
    have ho : c.optional = true := by
      by_contra ho
      simp [Conditional.selected?, Conditional.selector?, hv, ho] at h
    rw [hv] at h
    simp only [Slot.fill?, Conditional.fill_of_optional ho, h, Option.map_some]
    rcases x.mapping.run true m p with d | ⟨_ | e, after⟩ <;> rfl

end KeyRule

theorem step_footprint_unselected {key : Value} {c : Conditional} (hkey : reach key)
    (hnone : c.selected? (Entries.get? key m) = none) :
    StepFootprint m reach [key] ((⟨key, .conditional c⟩ : KeyRule).step m) := by
  cases hw : c.unselected? (Entries.get? key m) with
  | some w =>
    refine KeyRule.step_footprint_of_verdict (e := (Effect.pure w).claim key) hkey
      ((Effect.local_pure w reach).claim key) fun p hp => ?_
    rw [KeyRule.verdict_unselected hnone, hw, Effect.on_claim, Effect.on_pure,
      Progress.claimPresent_eq hp]
    rfl
  | none =>
    have habsent : Entries.get? key m = none := by
      cases hv : Entries.get? key m with
      | none => rfl
      | some v =>
        rw [hv] at hw
        cases hw
    refine KeyRule.step_footprint_of_missing (r := ⟨key, .conditional c⟩) habsent fun p _ => ?_
    rw [KeyRule.verdict_unselected hnone, hw]
    rfl

/-- What is made of the end of a case does not look at the output. -/
def judging (judge : Option Invalid → Except Invalid Value) (r : Option Invalid) (_ : Entries) :
    Except Invalid Value × List (Value × Value) := (judge r, [])

theorem Effect.Local.judging {e : Effect (Option Invalid)} (h : e.Local reach)
    (judge : Option Invalid → Except Invalid Value) : (e.next (judging judge)).Local reach :=
  h.next (fun _ _ _ _ => rfl) fun _ _ _ hx => absurd hx List.not_mem_nil

theorem step_footprint_selected {key : Value} {c : Conditional} {x : Case} (hkey : reach key)
    (hselected : c.selected? (Entries.get? key m) = some x)
    (hrun : Footprint m reach claims (x.mapping.run true m)) :
    StepFootprint m reach (key :: claims) ((⟨key, .conditional c⟩ : KeyRule).step m) := by
  obtain ⟨e, rfl, hlocal, hrun⟩ := hrun
  let judge := c.concluded (Entries.get? key m)
  refine KeyRule.step_footprint_of_verdict (e := Effect.claim key (e.next (judging judge))) hkey
    ((hlocal.judging judge).claim key) fun p hp => ?_
  rw [KeyRule.verdict_selected hselected, Progress.claimPresent_eq hp, hrun _ (hp.claim key),
    Effect.on_claim, Effect.on_next]
  rfl

/-! ### Passes -/

/-- A rule and the tables below it name keys of `reach` only, and no case has patterns. -/
structure KeyRule.Confined (reach : Value → Prop) (r : KeyRule) : Prop where
  key : reach r.key
  patterns : ∀ t, r.Leads t → t.patterns = []
  names : ∀ t, r.Leads t → ∀ s ∈ t.keys, reach s.key
  post : ∀ t, r.Leads t → ∀ p ∈ t.post, ∀ k ∈ p.refKeys, reach k

theorem KeyRule.Confined.below {key : Value} {c : Conditional} {x : Case}
    (h : Confined reach ⟨key, .conditional c⟩) (hx : x ∈ c.cases) :
    ∀ s ∈ x.mapping.keys, s.Confined reach := by
  intro s hs
  exact ⟨h.names x.mapping (.case hx) s hs, fun t ht => h.patterns t (.deeper hx hs ht),
    fun t ht => h.names t (.deeper hx hs ht), fun t ht => h.post t (.deeper hx hs ht)⟩

theorem step_footprint_cons {r : KeyRule} {rest : List KeyRule} {later : List Value}
    (hstep : StepFootprint m reach claims (r.step m))
    (hrest : StepFootprint m reach later (runKeys rest m)) :
    StepFootprint m reach (claims ++ later) (runKeys (r :: rest) m) := by
  obtain ⟨e, rfl, he, hstep⟩ := hstep
  obtain ⟨f, rfl, hf, hrest⟩ := hrest
  refine ⟨e.seq f, rfl, he.seq hf, fun p hp => ?_⟩
  rw [runKeys_cons, hstep p hp, Effect.onPass_seq]
  cases ha : e.onPass p with
  | error d => rfl
  | ok a => exact hrest a (Effect.within_of_onPass hp ha)

mutual

theorem runKeys_footprint : (keys : List KeyRule) → (∀ r ∈ keys, r.Confined reach) →
    StepFootprint m reach (appliedNames m keys) (runKeys keys m)
  | [], _ => ⟨.pure [], rfl, Effect.local_pure _ _, fun p _ => by
      rw [Effect.onPass, Effect.on_pure]
      simp [runKeys, Except.map]⟩
  | ⟨key, slot⟩ :: rest, h => by
    obtain ⟨hhead, hrest⟩ := List.forall_mem_cons.mp h
    exact step_footprint_cons (step_footprint slot key hhead) (runKeys_footprint rest hrest)

theorem step_footprint : (slot : Slot) → ∀ key, KeyRule.Confined reach ⟨key, slot⟩ →
    StepFootprint m reach (key :: slot.appliedNames m (Entries.get? key m))
      ((⟨key, slot⟩ : KeyRule).step m)
  | .type _, _, h => step_footprint_type h.key
  | .conditional ⟨cases, optional, default, applyDefaultSpec⟩, key, h => by
    have hcases := cases_footprint cases
      fun x hx => ⟨h.patterns _ (.case hx), h.post _ (.case hx), h.below hx⟩
    change StepFootprint m reach (key :: Conditional.appliedNames m _ _) _
    cases hx : Conditional.selected? ⟨cases, optional, default, applyDefaultSpec⟩
        (Entries.get? key m) with
    | none =>
      rw [Conditional.appliedNames_of_unselected hx]
      exact step_footprint_unselected h.key hx
    | some x =>
      rw [Conditional.appliedNames_of_selected hx]
      exact step_footprint_selected h.key hx (hcases x (Conditional.mem_of_selected? hx))

theorem cases_footprint : (cases : List Case) → (∀ x ∈ cases, x.mapping.patterns = [] ∧
      (∀ p ∈ x.mapping.post, ∀ k ∈ p.refKeys, reach k) ∧ ∀ s ∈ x.mapping.keys, s.Confined reach) →
    ∀ x ∈ cases, Footprint m reach (appliedNames m x.mapping.keys) (x.mapping.run true m)
  | [], _ => List.forall_mem_nil _
  | ⟨_, _, ⟨keys, _, _, _, _⟩⟩ :: rest, h => by
    obtain ⟨⟨hpatterns, hpost, hkeys⟩, hrest⟩ := List.forall_mem_cons.mp h
    exact List.forall_mem_cons.mpr
      ⟨Mapping.run_footprint hpatterns hpost (runKeys_footprint keys hkeys),
        cases_footprint rest hrest⟩

end

/-- Where cases have no patterns, a pass has an effect, as far as it may reach. -/
theorem footprint_of_patternless {keys : List KeyRule} (h : Patternless keys) :
    StepFootprint m (fun _ => True) (appliedNames m keys) (runKeys keys m) := by
  have hconfined : ∀ r ∈ keys, r.Confined fun _ => True := by
    intro r hr
    exact ⟨trivial, h r hr, fun _ _ _ _ => trivial, fun _ _ _ _ _ _ => trivial⟩
  exact runKeys_footprint keys hconfined

end Footprints

end Conformance
