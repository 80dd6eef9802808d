import Conformance.Constraint.Factory
import Conformance.Proofs.Conditional.Default
import Conformance.Proofs.Spec.Unprovided

/-! # Unset values under optional keys

Whether an optional key is absent or holds an unset value, its type gives the checked default. All
that is different is the key itself, which has to be claimed when it is there, and it is no matter
to the rules before it whether that is done before them or after them.
-/

namespace Conformance

open Value (Entries)

section Insert

variable {settings : Settings} {t : Mapping} {m : Entries} {key v : Value} {r : KeyRule}
  {before after : List KeyRule}

theorem runKeys_singleton (r : KeyRule) (m : Entries) (p : Pass) :
    runKeys [r] m p = r.step m p := by
  rw [runKeys_cons]
  cases r.step m p <;> rfl

/-- A key may be added if its own rule finds the same once the key is claimed, and no other rule
looks for it. -/
theorem runKeys_insert (hbefore : Patternless before) (hafter : Patternless after)
    (once : key ∉ keyNames before ++ keyNames after) (absent : Entries.get? key m = none)
    (hstep : ∀ p, r.step (Entries.insert key v m) p = r.step m (p.claim key)) :
    runKeys (before ++ [r] ++ after) (Entries.insert key v m)
        ⟨.start (Entries.insert key v m), []⟩ =
      runKeys (before ++ [r] ++ after) m ⟨.start m, []⟩ := by
  rw [List.mem_append, not_or] at once
  obtain ⟨hnotBefore, hnotAfter⟩ := once
  -- The rules before the key do not look for it, so it may be claimed before them or after them.
  have hstart : (⟨.start m, []⟩ : Pass) = Pass.claim key ⟨.start (Entries.insert key v m), []⟩ := by
    rw [Pass.claim, Progress.claim_start_insert absent]
  have hfirst : runKeys before m ⟨.start m, []⟩ =
      (runKeys before (Entries.insert key v m) ⟨.start (Entries.insert key v m), []⟩).map
        (Pass.claim key) := by
    rw [runKeys_congr before hbefore (get?_insert_of_not_mem hnotBefore v m), hstart]
    exact runKeys_claim hbefore (Progress.within_start _) key
  have hlast : ∀ a, runKeys after (Entries.insert key v m) a = runKeys after m a := fun a =>
    (runKeys_congr after hafter (get?_insert_of_not_mem hnotAfter v m) a).symm
  simp only [runKeys_append, hfirst]
  cases runKeys before (Entries.insert key v m) ⟨.start (Entries.insert key v m), []⟩ with
  | error d => rfl
  | ok a =>
    simp only [Except.map, Except.bind, runKeys_singleton, hstep a]
    cases r.step m (a.claim key) with
    | error d => rfl
    | ok b => exact hlast b

theorem Mapping.run_insert (patternless : Patternless t.keys)
    (declared : t.keys = before ++ [r] ++ after)
    (once : key ∉ keyNames before ++ keyNames after) (absent : Entries.get? key m = none)
    (hstep : ∀ p, r.step (Entries.insert key v m) p = r.step m (p.claim key))
    (unhandledOk : Bool) :
    t.run unhandledOk (Entries.insert key v m) (.start (Entries.insert key v m)) =
      t.run unhandledOk m (.start m) := by
  have hparts := patternless
  rw [declared, Patternless.append_iff, Patternless.append_iff] at hparts
  obtain ⟨⟨hbefore, -⟩, hafter⟩ := hparts
  have hkeys : runKeys t.keys (Entries.insert key v m) ⟨.start (Entries.insert key v m), []⟩ =
      runKeys t.keys m ⟨.start m, []⟩ := by
    rw [declared]
    exact runKeys_insert hbefore hafter once absent hstep
  rw [run_eq, run_eq, pass, pass, hkeys]
  cases hrun : runKeys t.keys m ⟨.start m, []⟩ with
  | error d => rfl
  | ok a =>
    have hwithin : a.progress.Within m :=
      within_of_runKeys (p := ⟨.start m, []⟩) patternless (Progress.within_start m) hrun
    have hnot : key ∉ a.progress.unhandled := fun hmem =>
      Entries.get?_eq_none_iff.mp absent (hwithin key hmem)
    simp only [Except.bind, claimKeys_congr (get?_insert_of_not_mem hnot v m)]

end Insert

/-- The type of a key gives the same for a value that is unset as for none. -/
theorem KeyRule.step_insert_unset {s : Spec} {d key u : Value} {m : Entries}
    (optional : s.isOptional = true) (accepted : s.check s.defaultValue = .ok d)
    (absent : Entries.get? key m = none) (unset : s.settings.unset.holds u = true) (p : Pass) :
    (⟨key, .type (.spec s)⟩ : KeyRule).step (Entries.insert key u m) p =
      (⟨key, .type (.spec s)⟩ : KeyRule).step m (p.claim key) := by
  have hcheck : s.check u = .ok d := (Spec.check_of_unset optional unset).trans accepted
  rw [step_unprovided optional accepted absent]
  simp only [step, verdict?, Entries.get?_insert_self, Slot.take, Base.check, hcheck,
    Outcome.settle]
  rfl

/-- A required mapping that has been built is checked the same, errors included, without an optional
key and with an unset value under the key. -/
theorem check_insert_unset {settings : Settings} {t : Mapping} {s : Spec} {key u : Value}
    {m : Entries} {before after : List KeyRule} (required : settings.optional = false)
    (built : (⟨settings, .mapping t⟩ : Spec).Buildable)
    (declared : t.keys = before ++ [⟨key, .type (.spec s)⟩] ++ after)
    (once : key ∉ keyNames before ++ keyNames after) (optional : s.isOptional = true)
    (absent : Entries.get? key m = none) (unset : s.settings.unset.holds u = true) :
    (⟨settings, .mapping t⟩ : Spec).check (.map (Entries.insert key u m)) =
      (⟨settings, .mapping t⟩ : Spec).check (.map m) := by
  have hsound := built.sound
  have hmem : ⟨key, .type (.spec s)⟩ ∈ t.keys := by
    rw [declared]
    simp
  have hspec : s ∈ (Rule.mapping t).specs := by
    refine List.mem_append_left _ (List.mem_flatMap.mpr ⟨_, hmem, ?_⟩)
    exact List.mem_singleton.mpr rfl
  obtain ⟨d, hd⟩ := (hsound.parts s hspec).own.default optional
  rw [Spec.check_mapping_eq required, Spec.check_mapping_eq required]
  rw [Mapping.run_insert hsound.patternless declared once absent
    (KeyRule.step_insert_unset optional hd absent unset)]

namespace Job

def tags : Spec := ⟨⟨true, .value (.list []), .falsy, []⟩, .iter [.atom (.kind .str)] .list⟩

def batch : Case :=
  ⟨.str "batch", .required,
    ⟨[⟨.str "size", .type (.atom (.kind .int))⟩], [], [], "dict", false⟩⟩

def kind : Conditional := ⟨[batch], false, .null, false⟩

/-- Jobs may have tags, and a batch has a size. All other keys are for numbers. -/
def table : Mapping :=
  ⟨[⟨.str "kind", .conditional kind⟩, ⟨.str "tags", .type (.spec tags)⟩],
    [⟨.atom (.kind .str), .atom (.kind .number)⟩], [], "dict", false⟩

def spec : Spec := ⟨.required, .mapping table⟩

def request : Entries := [(.str "kind", .str "batch"), (.str "retries", .int 3)]

theorem buildable : spec.Buildable := by
  let decl : Schema.MappingDecl :=
    { keys := [(.str "kind", .conditional kind), (.str "tags", .type (.spec tags))]
      patterns := [(.atom (.kind .str), .atom (.kind .number))] }
  have hiter : Schema.iter [.atom (.kind .str)] .list { optional := some true } = .ok tags := rfl
  have htags : tags.Buildable := .iter (List.forall_mem_nil _) hiter
  have hbatch : batch.spec.Buildable :=
    .shorthand (d := .mapping [⟨.value (.str "size"), .atom (.kind .int)⟩]) (List.forall_mem_nil _)
      rfl
  have hparts : ∀ t ∈ decl.specs, t.Buildable :=
    List.forall_mem_cons.mpr ⟨hbatch, List.forall_mem_singleton.mpr htags⟩
  have hdeclared : ∀ e ∈ decl.keys, e.2.Declared :=
    List.forall_mem_cons.mpr
      ⟨⟨[(.str "batch", .spec batch.spec)], false, none, false, rfl⟩,
        List.forall_mem_singleton.mpr trivial⟩
  exact .mapping (d := decl) hparts hdeclared rfl

end Job

/-- The error about a batch without a size is the same with unset tags. -/
theorem check_insert_unset_job :
    Job.spec.check (.map (Entries.insert (.str "tags") .null Job.request)) =
        Job.spec.check (.map Job.request) ∧
      ∃ e, Job.spec.check (.map Job.request) = .invalid e := by
  have declared : Job.table.keys =
      [⟨.str "kind", .conditional Job.kind⟩] ++ [⟨.str "tags", .type (.spec Job.tags)⟩] ++ [] := rfl
  have once : .str "tags" ∉ keyNames [⟨.str "kind", .conditional Job.kind⟩] ++ keyNames [] := by
    decide
  refine ⟨?_, _, rfl⟩
  exact check_insert_unset rfl Job.buildable declared once rfl rfl rfl

end Conformance
