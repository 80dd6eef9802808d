import Conformance.Proofs.Conditional.Order
import Conformance.Proofs.Conditional.Output
import Conformance.Proofs.Stable.Mapping

/-! # Cases on their own

The table of a case is run on the progress of the rules that select it. If its keys are its own, it
finds nothing of theirs in the output and does what it would do alone. The constraints of the case
are not part of its table.
-/

namespace Conformance

open Value (Entries)

namespace Case

/-- A case as a required specification with its constraints, where other keys may be left over. -/
def alone (x : Case) : Spec :=
  ⟨{ x.settings with optional := false }, .mapping { x.mapping with unhandledOk := true }⟩

def unconstrained (x : Case) : Spec :=
  ⟨{ x.settings with optional := false, constraints := [] },
    .mapping { x.mapping with unhandledOk := true }⟩

end Case

section Alone

variable {m : Entries} {reach : Value → Prop} {keys : List KeyRule} {p p' : Progress}

/-- Rules that find nothing under the keys that they look at end as they do from the start. -/
theorem writeAll_start (confined : ∀ r ∈ keys, r.Confined reach) (hp : p.Within m)
    (fresh : ∀ k, reach k → k ∉ Entries.keys p.output) (h : WriteAll keys m p p') :
    ∃ q, WriteAll keys m (.start m) q := by
  obtain ⟨e, -, hlocal, hrun⟩ := runKeys_footprint (m := m) keys confined
  -- Nothing is found there, as at the start, so the effect is the same in both places.
  have hagree : Agree reach (Progress.start m).output p.output := by
    intro k hk
    rw [Entries.get?_eq_none_iff.mpr (fresh k hk)]
    rfl
  simp only [WriteAll, hrun ⟨p, []⟩ hp, hrun ⟨.start m, []⟩ (Progress.within_start m),
    Effect.onPass_ends_iff] at h ⊢
  obtain ⟨hbroken, hnone, -⟩ := h
  rw [← hlocal.reads _ _ hagree] at hnone
  exact ⟨_, hbroken, hnone, rfl⟩

/-- Without patterns and post rules the run of a table is the pass over its keys. -/
theorem Mapping.run_plain_iff {t : Mapping} (hpatterns : t.patterns = []) (hpost : t.post = []) :
    t.run true m p = .ok (none, p') ↔ WriteAll t.keys m p p' := by
  rw [Mapping.run_accepts_iff, hpatterns, hpost]
  simp only [claimKeys_nil, Except.ok.injEq, Pass.mk.injEq, and_true, true_or, true_and]
  constructor
  · rintro ⟨a, _, ha, rfl, hfinish⟩
    cases hfinish
    exact ha
  · intro h
    exact ⟨p', p', h, rfl, rfl⟩

/-- A case that ends well from the start is accepted on its own, up to its constraints. -/
theorem Case.check_of_run {x : Case} (h : x.mapping.run true m (.start m) = .ok (none, p)) :
    x.unconstrained.check (.map m) = .ok (.map p.output) ∧
      ∀ w, x.alone.check (.map m) = .ok w ↔
        w = .map p.output ∧ ∀ k ∈ x.settings.constraints, k.holds (.map p.output) = true := by
  obtain ⟨value, settings, ⟨keys, patterns, post, name, ok⟩⟩ := x
  have hrun : (⟨keys, patterns, post, name, true⟩ : Mapping).run true m (.start m) =
      .ok (none, p) := h
  refine ⟨(Spec.check_mapping_ok_iff rfl).mpr ⟨p, hrun, rfl, List.forall_mem_nil _⟩, fun w => ?_⟩
  refine (Spec.check_mapping_ok_iff rfl).trans ⟨?_, ?_⟩
  · rintro ⟨q, hq, rfl, hconstraints⟩
    cases hrun.symm.trans hq
    exact ⟨rfl, hconstraints⟩
  · rintro ⟨rfl, hconstraints⟩
    exact ⟨p, hrun, rfl, hconstraints⟩

/-- A case that finds nothing under the keys that it looks at ends well from the start if it ends
well within a table. -/
theorem Case.run_start {x : Case} (patterns : x.mapping.patterns = []) (post : x.mapping.post = [])
    (confined : ∀ r ∈ x.mapping.keys, r.Confined reach) (hp : p.Within m)
    (fresh : ∀ k, reach k → k ∉ Entries.keys p.output)
    (h : x.mapping.run true m p = .ok (none, p')) :
    ∃ q, x.mapping.run true m (.start m) = .ok (none, q) := by
  obtain ⟨q, hq⟩ := writeAll_start confined hp fresh ((Mapping.run_plain_iff patterns post).mp h)
  exact ⟨q, (Mapping.run_plain_iff patterns post).mpr hq⟩

variable {settings : Settings} {t : Mapping} {before after : List KeyRule} {key : Value}
  {c : Conditional} {x : Case} {out : Value}

/-- A discriminator whose value is written has had its case run. -/
theorem run_of_writes_selected (selected : c.selected? (Entries.get? key m) = some x)
    (h : (⟨key, .conditional c⟩ : KeyRule).Writes m p p') :
    ∃ q, x.mapping.run true m (p.claimPresent m key) = .ok (none, q) := by
  obtain ⟨v, q, hv, -⟩ := h
  rw [KeyRule.verdict_selected selected, Option.some.injEq] at hv
  rcases hrun : x.mapping.run true m (p.claimPresent m key) with d | ⟨_ | e, q'⟩ <;> rw [hrun] at hv
  · cases hv
  · exact ⟨q', rfl⟩
  · cases hkey : Entries.get? key m <;> rw [hkey] at hv <;> cases hv

/-- What a table accepts with a case selected has the structure of the case. It need not meet the
constraints of the case, which the table does not ask about. -/
theorem check_case (given : settings.replaces (.map m) = false)
    (declared : t.keys = before ++ [⟨key, .conditional c⟩] ++ after)
    (patternless : Patternless t.keys)
    (selected : c.selected? (Entries.get? key m) = some x) (post : x.mapping.post = [])
    (unread : ∀ r ∈ x.mapping.keys, ∀ u, r.Leads u → ∀ p ∈ u.post,
      p.refKeys.Disjoint (keyNames before))
    (apart : (keyNames x.mapping.keys).Disjoint (keyNames before))
    (accepted : (⟨settings, .mapping t⟩ : Spec).check (.map m) = .ok out) :
    ∃ alone, x.unconstrained.check (.map m) = .ok alone ∧
      ∀ w, x.alone.check (.map m) = .ok w ↔
        w = alone ∧ ∀ k ∈ x.settings.constraints, k.holds alone = true := by
  obtain ⟨_, _, hm, hrun, -⟩ :=
    Rule.mapping_check_ok_iff.mp (Spec.rule_of_check_mapping given accepted)
  cases hm
  obtain ⟨_, _, hwrite, -⟩ := Mapping.run_accepts_iff.mp hrun
  rw [declared] at hwrite patternless
  obtain ⟨a, b, hbefore, hkey, -⟩ := writeAll_append_append.mp hwrite
  obtain ⟨hhead, -⟩ := Patternless.append_iff.mp patternless
  obtain ⟨hpatterns, hcase⟩ := Patternless.append_iff.mp hhead
  have hwithin : (a.claimPresent m key).Within m := by
    have ha : a.Within m := within_of_writeAll hpatterns (Progress.within_start m) hbefore
    rw [Progress.claimPresent_eq ha]
    exact ha.claim key
  -- Only the rules before the discriminator have run by now, and they write under their own names.
  have hfresh : ∀ k, k ∉ keyNames before → k ∉ Entries.keys (a.claimPresent m key).output := by
    intro k hk hmem
    have hgrows : Grows (· ∈ keyNames before) [] a.output :=
      grows_of_runKeys before (fun _ h => h) (.inr hpatterns) hbefore
    rw [Progress.output_claimPresent] at hmem
    exact hk ((hgrows.added k hmem).resolve_left List.not_mem_nil)
  obtain ⟨hx, hbelow⟩ := KeyRule.forall_leads_iff.mp (hcase _ List.mem_cons_self) x
    (Conditional.mem_of_selected? selected)
  have hconfined : ∀ r ∈ x.mapping.keys, r.Confined (· ∉ keyNames before) := by
    intro r hr
    refine KeyRule.confined_of_scope (fun k hk => ?_) (hbelow r hr) (unread r hr)
    exact apart (mem_keyNames.mpr ⟨r, hr, hk⟩)
  obtain ⟨q, hq⟩ := run_of_writes_selected selected (writeAll_singleton.mp hkey)
  obtain ⟨o, ho⟩ := Case.run_start hx post hconfined hwithin hfresh hq
  exact ⟨.map o.output, Case.check_of_run ho⟩

end Alone

namespace Listener

/-- No port is 0. -/
def assigned : Constraint := ⟨⟨⟨[]⟩, fun v => v != .map [(.str "port", .int 0)]⟩, "is not assigned"⟩

def socket : Case :=
  ⟨.str "tcp", ⟨false, .value (.map []), .falsy, [assigned]⟩,
    ⟨[⟨.str "port", .type (.atom (.kind .int))⟩], [], [], "socket", false⟩⟩

def transport : Conditional := ⟨[socket], false, .null, false⟩

def name : KeyRule := ⟨.str "name", .type (.atom (.kind .str))⟩

/-- What listens has a name, and a port if it listens to a socket. -/
def table : Mapping := ⟨[name, ⟨.str "transport", .conditional transport⟩], [], [], "dict", false⟩

def request (port : Int64) : Entries :=
  [(.str "name", .str "api"), (.str "port", .int port), (.str "transport", .str "tcp")]

end Listener

theorem check_case_listener :
    Listener.socket.alone.check (.map (Listener.request 80)) =
      .ok (.map [(.str "port", .int 80)]) := by
  have patternless : Patternless Listener.table.keys := by decide
  have unread : ∀ r ∈ Listener.socket.mapping.keys, ∀ u, r.Leads u → ∀ p ∈ u.post,
      p.refKeys.Disjoint (keyNames [Listener.name]) := by
    intro r hr u hu
    obtain rfl := List.mem_singleton.mp hr
    exact absurd hu KeyRule.not_leads_type
  have apart : (keyNames Listener.socket.mapping.keys).Disjoint (keyNames [Listener.name]) := by
    intro k hk hk'
    obtain rfl := List.mem_singleton.mp hk
    exact absurd hk' (by decide)
  have accepted : (⟨.required, .mapping Listener.table⟩ : Spec).check
      (.map (Listener.request 80)) = .ok (.map (Listener.request 80)) := rfl
  have declared : Listener.table.keys =
      [Listener.name] ++ [⟨.str "transport", .conditional Listener.transport⟩] ++ [] := rfl
  obtain ⟨alone, hstructure, halone⟩ :=
    check_case rfl declared patternless rfl rfl unread apart accepted
  obtain rfl : .map [(.str "port", .int 80)] = alone := Outcome.ok.inj hstructure
  exact (halone _).mpr ⟨rfl, List.forall_mem_singleton.mpr (by decide)⟩

/-- A table does not ask about the constraints of a case. -/
theorem check_case_unasked :
    (⟨.required, .mapping Listener.table⟩ : Spec).check (.map (Listener.request 0)) =
        .ok (.map (Listener.request 0)) ∧
      Listener.transport.selected? (Entries.get? (.str "transport") (Listener.request 0)) =
        some Listener.socket ∧
      ∀ w, Listener.socket.alone.check (.map (Listener.request 0)) ≠ .ok w :=
  ⟨rfl, rfl, nofun⟩

end Conformance
