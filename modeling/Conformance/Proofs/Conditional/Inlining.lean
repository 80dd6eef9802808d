import Conformance.Proofs.Conditional.Pass

/-! # Selecting a case and declaring its keys

A discriminator that selects a case accepts what it would accept if the keys of the case were
declared in its place, before the discriminator itself with its one value.
-/

namespace Conformance

open Value (Entries)

/-! ## Keys in the place of others -/

/-- Keys that write the same when they all succeed, claim the same and break off on the same
defect, but need not agree on their failures. -/
structure Interchangeable (m : Entries) (xs ys : List KeyRule) : Prop where
  left : Patternless xs
  right : Patternless ys
  writes : ∀ p : Progress, p.Within m → ∀ p', WriteAll xs m p p' ↔ WriteAll ys m p p'
  names : ∀ k, k ∈ appliedNames m xs ↔ k ∈ appliedNames m ys
  defect : keyDefect? m xs = keyDefect? m ys

namespace Interchangeable

variable {m : Entries} {xs ys : List KeyRule} {settings : Settings} {t : Mapping}

theorem between (h : Interchangeable m xs ys) {before after : List KeyRule}
    (hbefore : Patternless before) (hafter : Patternless after) :
    Interchangeable m (before ++ xs ++ after) (before ++ ys ++ after) where
  left := Patternless.append_iff.mpr ⟨Patternless.append_iff.mpr ⟨hbefore, h.left⟩, hafter⟩
  right := Patternless.append_iff.mpr ⟨Patternless.append_iff.mpr ⟨hbefore, h.right⟩, hafter⟩
  writes p hp p' := by
    rw [writeAll_append_append, writeAll_append_append]
    refine exists_congr fun a => exists_congr fun b => and_congr_right fun ha => and_congr_left' ?_
    have hwithin : a.Within m := within_of_writeAll hbefore hp ha
    exact h.writes a hwithin b
  names k := by simp only [appliedNames_append, List.mem_append, h.names k]
  defect := by
    have hxs := Patternless.append_iff.mpr ⟨hbefore, h.left⟩
    have hys := Patternless.append_iff.mpr ⟨hbefore, h.right⟩
    rw [keyDefect?_append hxs hafter, keyDefect?_append hys hafter,
      keyDefect?_append hbefore h.left, keyDefect?_append hbefore h.right, h.defect]

theorem check_ok_iff (h : Interchangeable m t.keys ys) (required : settings.optional = false)
    {out : Value} :
    (⟨settings, .mapping t⟩ : Spec).check (.map m) = .ok out ↔
      (⟨settings, .mapping { t with keys := ys }⟩ : Spec).check (.map m) = .ok out :=
  Spec.check_mapping_congr required rfl rfl rfl (h.writes (.start m) (Progress.within_start m))
    fun _ _ _ _ => rfl

theorem check_defect_iff (h : Interchangeable m t.keys ys) (required : settings.optional = false)
    {d : Defect} :
    (⟨settings, .mapping t⟩ : Spec).check (.map m) = .defect d ↔
      (⟨settings, .mapping { t with keys := ys }⟩ : Spec).check (.map m) = .defect d := by
  have hleft : (Entries.keys m).filter (· ∉ appliedNames m t.keys) =
      (Entries.keys m).filter (· ∉ appliedNames m ys) :=
    List.filter_congr fun k _ => by simp only [h.names k]
  rw [Spec.check_mapping_defect_iff required, Spec.check_mapping_defect_iff required,
    Mapping.run_start_error_iff h.left, Mapping.run_start_error_iff h.right, h.defect, hleft]

end Interchangeable

/-! ## A single value as a type -/

theorem Spec.check_enum_single {d : Value} {s : Spec} (h : Spec.enum [d] none {} = .ok s) :
    s.check d = .ok d := by
  have hs : s = ⟨⟨[d].contains .null, .value .null, .falsy, []⟩, .enum [d] none⟩ :=
    (Spec.assemble_ok_iff.mp h).1
  have hgiven : (⟨[d].contains .null, .value .null, .falsy, []⟩ : Settings).given d = d := by
    by_cases hd : d = .null
    · rw [hd]
      rfl
    · have hne : [d].contains .null = false := by simpa using Ne.symm hd
      exact Settings.given_of_kept (Settings.replaces_of_required hne d)
  rw [hs, Spec.check_ok_iff, hgiven]
  refine ⟨d, ?_, .inr fun k hk => absurd hk List.not_mem_nil, rfl⟩
  simp [Rule.check]

/-! ## The selecting key -/

section Selecting

variable {m : Entries} {key d : Value} {c : Conditional} {x : Case} {b : Base} {p p' : Progress}

theorem patternless_of_case (selected : c.case? d = some x)
    (h : Patternless [⟨key, .conditional c⟩]) :
    x.mapping.patterns = [] ∧ Patternless x.mapping.keys :=
  KeyRule.forall_leads_iff.mp (h _ List.mem_cons_self) x (Conditional.mem_of_case? selected)

theorem patternless_type (key : Value) (b : Base) : Patternless [⟨key, .type b⟩] :=
  List.forall_mem_singleton.mpr fun _ ht => absurd ht KeyRule.not_leads_type

theorem writes_selecting_iff (present : Entries.get? key m = some d) (selected : c.case? d = some x)
    (patterns : x.mapping.patterns = []) (post : x.mapping.post = []) :
    (⟨key, .conditional c⟩ : KeyRule).Writes m p p' ↔
      ∃ after, WriteAll x.mapping.keys m (p.claim key) after ∧ p' = after.put key d := by
  have hverdict : (⟨key, .conditional c⟩ : KeyRule).verdict? m p =
      some ((x.mapping.run true m (p.claim key)).asCase d) := by
    simp only [KeyRule.verdict?, present, Slot.take, Conditional.take_of_case selected]
  have hrun : ∀ after, x.mapping.run true m (p.claim key) = .ok (none, after) ↔
      WriteAll x.mapping.keys m (p.claim key) after := by
    intro after
    rw [Mapping.run_of_patternless patterns, post, WriteAll]
    rcases runKeys x.mapping.keys m ⟨p.claim key, []⟩ with e | ⟨q, failures⟩
    · simp [Except.map]
    · cases failures <;> simp [Except.map, Pass.finish, Post.applyAll]
  simp only [KeyRule.Writes, hverdict, Option.some.injEq]
  constructor
  · rintro ⟨v, after, hv, rfl⟩
    cases hr : x.mapping.run true m (p.claim key) with
    | error e =>
      rw [hr] at hv
      cases hv
    | ok ended =>
      obtain ⟨_ | e, q⟩ := ended <;> rw [hr] at hv <;> cases hv
      exact ⟨after, (hrun after).mp hr, rfl⟩
  · rintro ⟨after, hafter, rfl⟩
    refine ⟨d, after, ?_, rfl⟩
    rw [(hrun after).mpr hafter]
    rfl

theorem writes_exact_iff (present : Entries.get? key m = some d) (exact : b.check d = .ok d)
    (hp : p.Within m) :
    (⟨key, .type b⟩ : KeyRule).Writes m p p' ↔ p' = (p.claim key).put key d := by
  change (KeyRule.typed (key, b)).Writes m p p' ↔ _
  rw [KeyRule.writes_type_iff hp]
  simp [present, Base.provided?, exact]

/-- The keys of the case are written between the claim on the discriminator and its value. -/
theorem writes_selecting_iff_inlined (present : Entries.get? key m = some d)
    (selected : c.case? d = some x) (patternless : Patternless [⟨key, .conditional c⟩])
    (post : x.mapping.post = []) (exact : b.check d = .ok d) (hp : p.Within m) :
    WriteAll [⟨key, .conditional c⟩] m p p' ↔
      WriteAll (x.mapping.keys ++ [⟨key, .type b⟩]) m p p' := by
  obtain ⟨hpatterns, hkeys⟩ := patternless_of_case selected patternless
  rw [writeAll_singleton, writeAll_append, writes_selecting_iff present selected hpatterns post]
  constructor
  · rintro ⟨after, hafter, rfl⟩
    obtain ⟨b', hb', rfl⟩ := (writeAll_claim_iff hkeys hp key).mp hafter
    have hwithin : b'.Within m := within_of_writeAll hkeys hp hb'
    exact ⟨b', hb', writeAll_singleton.mpr ((writes_exact_iff present exact hwithin).mpr rfl)⟩
  · rintro ⟨b', hb', hlast⟩
    have hwithin : b'.Within m := within_of_writeAll hkeys hp hb'
    have hp' := (writes_exact_iff present exact hwithin).mp (writeAll_singleton.mp hlast)
    exact ⟨b'.claim key, (writeAll_claim_iff hkeys hp key).mpr ⟨b', hb', rfl⟩, hp'⟩

theorem keyDefect?_selecting (present : Entries.get? key m = some d)
    (selected : c.case? d = some x) (patternless : Patternless [⟨key, .conditional c⟩]) :
    keyDefect? m [⟨key, .conditional c⟩] = keyDefect? m x.mapping.keys := by
  obtain ⟨hpatterns, hkeys⟩ := patternless_of_case selected patternless
  have hclaimed : (⟨(Progress.start m).claim key, []⟩ : Pass).progress.Within m :=
    (Progress.within_start m).claim key
  have hstep : (⟨key, .conditional c⟩ : KeyRule).step m ⟨.start m, []⟩ =
      ((x.mapping.run true m ((Progress.start m).claim key)).asCase d).map
        (.record [] key (KeyRule.context m ⟨key, .conditional c⟩)) := by
    simp only [KeyRule.step, KeyRule.verdict?, present, Slot.take,
      Conditional.take_of_case selected]
  refine Option.ext fun e => ?_
  rw [keyDefect?_eq_some_iff, runKeys_cons, hstep, ← runKeys_error_iff hkeys hclaimed,
    Mapping.run_of_patternless hpatterns]
  rcases runKeys x.mapping.keys m ⟨(Progress.start m).claim key, []⟩ with e' | q
  · simp [Except.map, Except.bind, Run.asCase]
  · rcases hfinish : q.finish x.mapping.post with ⟨_ | err, after⟩ <;>
      simp [Except.map, Except.bind, Run.asCase, hfinish, runKeys]

theorem keyDefect?_exact (present : Entries.get? key m = some d) (exact : b.check d = .ok d) :
    keyDefect? m [⟨key, .type b⟩] = none := by
  have hwrites := (writes_exact_iff present exact (Progress.within_start m)).mpr rfl
  exact keyDefect?_eq_none_iff.mpr ⟨_, writeAll_singleton.mpr hwrites⟩

theorem mem_appliedNames_selecting {k : Value} (present : Entries.get? key m = some d)
    (selected : c.case? d = some x) :
    k ∈ appliedNames m [⟨key, .conditional c⟩] ↔
      k ∈ appliedNames m (x.mapping.keys ++ [⟨key, .type b⟩]) := by
  have hselected : c.selected? (Entries.get? key m) = some x := by
    rw [present]
    exact selected
  have hnames : (Slot.conditional c).appliedNames m (Entries.get? key m) =
      appliedNames m x.mapping.keys := c.appliedNames_of_selected hselected
  rw [appliedNames_append, List.mem_append, mem_appliedNames_cons, mem_appliedNames_cons, hnames]
  simp [appliedNames, Slot.appliedNames, or_comm]

/-- The keys of a case, and then the value that selects the case, stand for the selecting key. -/
theorem interchangeable_selecting (present : Entries.get? key m = some d)
    (selected : c.case? d = some x) (patternless : Patternless [⟨key, .conditional c⟩])
    (post : x.mapping.post = []) (exact : b.check d = .ok d) :
    Interchangeable m [⟨key, .conditional c⟩] (x.mapping.keys ++ [⟨key, .type b⟩]) := by
  have hkeys : Patternless x.mapping.keys := (patternless_of_case selected patternless).2
  have hlast : Patternless [⟨key, .type b⟩] := patternless_type key b
  have hboth : Patternless (x.mapping.keys ++ [⟨key, .type b⟩]) :=
    Patternless.append_iff.mpr ⟨hkeys, hlast⟩
  refine ⟨patternless, hboth, fun p hp p' => ?_, fun k => ?_, ?_⟩
  · exact writes_selecting_iff_inlined present selected patternless post exact hp
  · exact mem_appliedNames_selecting present selected
  · rw [keyDefect?_append hkeys hlast, keyDefect?_selecting present selected patternless,
      keyDefect?_exact present exact, Option.or_none]

end Selecting

/-! ## The check -/

/-- A mapping that selects a case is checked as if the keys of the case were declared before the
discriminator, and the discriminator had just the one value. -/
theorem check_inlined {settings : Settings} {t : Mapping} {before after : List KeyRule}
    {key d : Value} {c : Conditional} {x : Case} {exactly : Spec} {m : Entries}
    (required : settings.optional = false)
    (declared : t.keys = before ++ [⟨key, .conditional c⟩] ++ after)
    (patternless : Patternless t.keys) (selected : c.case? d = some x)
    (post : x.mapping.post = []) (single : Spec.enum [d] none {} = .ok exactly)
    (present : Entries.get? key m = some d) :
    let inlined := before ++ (x.mapping.keys ++ [⟨key, .type (.spec exactly)⟩]) ++ after
    (∀ out, (⟨settings, .mapping t⟩ : Spec).check (.map m) = .ok out ↔
      (⟨settings, .mapping { t with keys := inlined }⟩ : Spec).check (.map m) = .ok out) ∧
    ∀ e, (⟨settings, .mapping t⟩ : Spec).check (.map m) = .defect e ↔
      (⟨settings, .mapping { t with keys := inlined }⟩ : Spec).check (.map m) = .defect e := by
  intro inlined
  rw [declared, Patternless.append_iff, Patternless.append_iff] at patternless
  obtain ⟨⟨hbefore, hkey⟩, hafter⟩ := patternless
  have exact : (Base.spec exactly).check d = .ok d := Spec.check_enum_single single
  have hsame : Interchangeable m t.keys inlined := by
    rw [declared]
    exact (interchangeable_selecting present selected hkey post exact).between hbefore hafter
  exact ⟨fun out => hsame.check_ok_iff required, fun e => hsame.check_defect_iff required⟩

namespace Payment

def transfer : Mapping := ⟨[⟨.str "bank", .type (.atom (.kind .int))⟩], [], [], "local", false⟩

def network : Conditional := ⟨[⟨.str "local", .required, transfer⟩], true, .str "any", false⟩

def card : Case :=
  ⟨.str "card", .required,
    ⟨[⟨.str "number", .type (.atom (.kind .str))⟩, ⟨.str "network", .conditional network⟩], [], [],
      "card", false⟩⟩

def method : Conditional := ⟨[card], false, .null, false⟩

def before : List KeyRule := [⟨.str "amount", .type (.atom (.kind .int))⟩]

def after : List KeyRule := [⟨.str "note", .type (.atom (.kind .str))⟩]

/-- A method of payment that selects a network in turn, and remarks under whole numbers. -/
def table : Mapping :=
  ⟨before ++ [⟨.str "method", .conditional method⟩] ++ after,
    [⟨.atom (.kind .int), .atom (.kind .str)⟩], [], "payment", false⟩

def exactly : Spec := ⟨⟨false, .value .null, .falsy, []⟩, .enum [.str "card"] none⟩

def inlined : List KeyRule :=
  before ++ (card.mapping.keys ++ [⟨.str "method", .type (.spec exactly)⟩]) ++ after

def request : Entries :=
  [(.int 3, .str "gift"), (.str "amount", .int 5), (.str "bank", .int 12),
    (.str "method", .str "card"), (.str "network", .str "local"), (.str "note", .str "tea"),
    (.str "number", .str "4000")]

end Payment

theorem check_inlined_payment :
    (⟨.required, .mapping { Payment.table with keys := Payment.inlined }⟩ : Spec).check
      (.map Payment.request) = .ok (.map Payment.request) := by
  have single : Spec.enum [.str "card"] none {} = .ok Payment.exactly := rfl
  have present : Entries.get? (.str "method") Payment.request = some (.str "card") := rfl
  have selected : Payment.method.case? (.str "card") = some Payment.card := rfl
  have patternless : Patternless Payment.table.keys := by decide
  have required : Settings.required.optional = false := rfl
  have hsame := check_inlined required rfl patternless selected rfl single present
  exact (hsame.1 (.map Payment.request)).mp rfl

end Conformance
