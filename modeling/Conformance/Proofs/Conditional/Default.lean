import Conformance.Proofs.Conditional.Pass

/-! # Writing down the default of a discriminator

An optional discriminator that is absent is given its default, and then selects the case of the
default if this case is to apply. A discriminator that is present selects by its value. The two come
to the same when the default selects the same case either way.
-/

namespace Conformance

open Value (Entries)

/-! ## Keys that are not looked at -/

section Congruence

variable {m m' : Entries}

structure Slot.Same (m m' : Entries) (s : Slot) : Prop where
  take : ∀ p v, s.take m p v = s.take m' p v
  fill : ∀ p, s.fill? m p = s.fill? m' p

theorem Slot.same_type (b : Base) : (Slot.type b).Same m m' where
  take _ _ := rfl
  fill _ := by cases b <;> rfl

theorem Slot.same_conditional {c : Conditional}
    (h : ∀ x ∈ c.cases, ∀ p, x.mapping.run true m p = x.mapping.run true m' p) :
    (Slot.conditional c).Same m m' where
  take p v := by
    change c.take m p v = c.take m' p v
    cases hx : c.case? v with
    | none => rw [Conditional.take_of_no_case hx, Conditional.take_of_no_case hx]
    | some x =>
      have hx' : x ∈ c.cases := Conditional.mem_of_case? hx
      rw [Conditional.take_of_case hx, Conditional.take_of_case hx, h x hx']
  fill p := by
    change c.fill? m p = c.fill? m' p
    cases ho : c.optional with
    | false => rw [Conditional.fill_of_required ho, Conditional.fill_of_required ho]
    | true =>
      rw [Conditional.fill_of_optional ho, Conditional.fill_of_optional ho]
      cases hx : c.selected? none with
      | none => rfl
      | some x => simp only [Option.map_some, h x (Conditional.mem_of_selected? hx)]

theorem KeyRule.step_congr {r : KeyRule} (hkey : Entries.get? r.key m = Entries.get? r.key m')
    (h : r.slot.Same m m') (p : Pass) : r.step m p = r.step m' p := by
  simp only [step, verdict?, context, hkey, h.take, h.fill]

mutual

/-- A pass looks at nothing but the keys that it declares. -/
theorem runKeys_congr : (keys : List KeyRule) → Patternless keys →
    (∀ k ∈ keyNames keys, Entries.get? k m = Entries.get? k m') →
    ∀ p, runKeys keys m p = runKeys keys m' p
  | [], _, _, _ => rfl
  | ⟨key, slot⟩ :: rest, hkeys, h, p => by
    obtain ⟨hhead, hrest⟩ := List.forall_mem_cons.mp hkeys
    obtain ⟨hkey, hnames⟩ := List.forall_mem_cons.mp h
    obtain ⟨hslot, hnames⟩ := List.forall_mem_append.mp hnames
    have hstep := KeyRule.step_congr (r := ⟨key, slot⟩) hkey (slot_congr slot key hhead hslot) p
    rw [runKeys_cons, runKeys_cons, hstep]
    exact bind_congr fun a => runKeys_congr rest hrest hnames a

theorem slot_congr : (slot : Slot) → ∀ key, (∀ t, KeyRule.Leads ⟨key, slot⟩ t → t.patterns = []) →
    (∀ k ∈ slot.names, Entries.get? k m = Entries.get? k m') → slot.Same m m'
  | .type b, _, _, _ => Slot.same_type b
  | .conditional ⟨cases, _, _, _⟩, _, hpatterns, h =>
    Slot.same_conditional (cases_congr cases (KeyRule.forall_leads_iff.mp hpatterns) h)

theorem cases_congr : (cases : List Case) →
    (∀ x ∈ cases, x.mapping.patterns = [] ∧ Patternless x.mapping.keys) →
    (∀ k ∈ caseNames cases, Entries.get? k m = Entries.get? k m') →
    ∀ x ∈ cases, ∀ p, x.mapping.run true m p = x.mapping.run true m' p
  | [], _, _ => List.forall_mem_nil _
  | ⟨_, _, ⟨keys, patterns, post, name, ok⟩⟩ :: rest, hcases, h => by
    obtain ⟨⟨hpatterns, hkeys⟩, hrest⟩ := List.forall_mem_cons.mp hcases
    obtain ⟨hnames, hnames'⟩ := List.forall_mem_append.mp h
    refine List.forall_mem_cons.mpr ⟨fun p => ?_, cases_congr rest hrest hnames'⟩
    rw [Mapping.run_of_patternless hpatterns, Mapping.run_of_patternless hpatterns,
      runKeys_congr keys hkeys hnames]

end

theorem writeAll_congr {keys : List KeyRule} (hkeys : Patternless keys)
    (h : ∀ k ∈ keyNames keys, Entries.get? k m = Entries.get? k m') {p p' : Progress} :
    WriteAll keys m p p' ↔ WriteAll keys m' p p' := by
  rw [WriteAll, WriteAll, runKeys_congr keys hkeys h]

end Congruence

/-! ## The default under its key -/

/-- Nothing else is found when a key is added that nobody looks for. -/
theorem get?_insert_of_not_mem {names : List Value} {key : Value} (h : key ∉ names) (v : Value)
    (m : Entries) : ∀ k ∈ names, Entries.get? k m = Entries.get? k (Entries.insert key v m) := by
  intro k hk
  have hne : k ≠ key := fun hkey => h (hkey ▸ hk)
  exact (Entries.get?_insert_of_ne hne v m).symm

theorem Progress.claim_start_insert {m : Entries} {key : Value} (absent : Entries.get? key m = none)
    (v : Value) : (start (Entries.insert key v m)).claim key = start m := by
  have hkeys : (Entries.keys (Entries.insert key v m)).filter (· ≠ key) =
      (Entries.keys m).filter (· ≠ key) := by
    rw [Entries.keys_insert, Value.filter_insertMember]
  have hclaimed := Progress.claim_of_absent (within_start m) absent
  rw [claim, start, hkeys]
  exact hclaimed

namespace Conditional

variable {c : Conditional}

/-- An absent key selects the case of the default if there is one and it is to apply. -/
theorem selected_none (optional : c.optional = true)
    (settled : c.default ∈ c.caseValues → c.applyDefaultSpec = true) :
    c.selected? none = c.case? c.default := by
  cases ha : c.applyDefaultSpec with
  | true => simp [selected?, selector?, optional, ha]
  | false =>
    have hnone : c.case? c.default = none := by
      refine case?_eq_none_iff.mpr fun hmem => ?_
      rw [settled hmem] at ha
      cases ha
    simp [selected?, selector?, ha, hnone]

end Conditional

section Default

variable {settings : Settings} {t : Mapping} {m : Entries} {key : Value} {c : Conditional}

/-- The step of an absent discriminator and that of one with its default succeed alike. They only
word their failures in different ways. -/
theorem writes_default_iff (optional : c.optional = true)
    (settled : c.default ∈ c.caseValues → c.applyDefaultSpec = true)
    (absent : Entries.get? key m = none) {m' : Entries}
    (present : Entries.get? key m' = some c.default)
    (hcases : ∀ x ∈ c.cases, ∀ p, x.mapping.run true m p = x.mapping.run true m' p)
    {p p' : Progress} :
    (⟨key, .conditional c⟩ : KeyRule).Writes m (p.claim key) p' ↔
      (⟨key, .conditional c⟩ : KeyRule).Writes m' p p' := by
  have hfill : (⟨key, .conditional c⟩ : KeyRule).verdict? m (p.claim key) =
      c.fill? m (p.claim key) := by
    simp only [KeyRule.verdict?, absent]
    rfl
  have htake : (⟨key, .conditional c⟩ : KeyRule).verdict? m' p =
      some (c.take m' (p.claim key) c.default) := by
    simp only [KeyRule.verdict?, present]
    rfl
  simp only [KeyRule.Writes, hfill, htake, Conditional.fill_of_optional optional,
    Conditional.selected_none optional settled]
  cases hx : c.case? c.default with
  | none =>
    rw [Conditional.take_of_no_case hx]
    simp [optional, defaultVerdict]
  | some x =>
    rw [Conditional.take_of_case hx, Option.map_some, hcases x (Conditional.mem_of_case? hx)]
    rcases x.mapping.run true m' (p.claim key) with d | ⟨_ | e, after⟩ <;>
      simp [defaultVerdict, Run.asCase]

/-- The start on the mapping with the default is the other start but for the claim on the key. -/
theorem writeAll_insert_default {before after : List KeyRule} (hbefore : Patternless before)
    (hkey : Patternless [⟨key, .conditional c⟩]) (hafter : Patternless after)
    (optional : c.optional = true)
    (distinct : key ∉ keyNames before ++ c.names ++ keyNames after)
    (settled : c.default ∈ c.caseValues → c.applyDefaultSpec = true)
    (absent : Entries.get? key m = none) {a : Progress} :
    WriteAll (before ++ [⟨key, .conditional c⟩] ++ after) m (.start m) a ↔
      WriteAll (before ++ [⟨key, .conditional c⟩] ++ after) (Entries.insert key c.default m)
        (.start (Entries.insert key c.default m)) a := by
  simp only [List.mem_append, not_or] at distinct
  obtain ⟨⟨hnotBefore, hnotCases⟩, hnotAfter⟩ := distinct
  have hnames : ∀ names : List Value, key ∉ names → ∀ k ∈ names,
      Entries.get? k m = Entries.get? k (Entries.insert key c.default m) :=
    fun names hnot => get?_insert_of_not_mem hnot c.default m
  have hcases : ∀ x ∈ c.cases, ∀ p,
      x.mapping.run true m p = x.mapping.run true (Entries.insert key c.default m) p := by
    have hbelow := KeyRule.forall_leads_iff.mp (hkey _ List.mem_cons_self)
    obtain ⟨cases, o, d, f⟩ := c
    exact cases_congr cases hbelow (hnames _ hnotCases)
  have hpresent := Entries.get?_insert_self key c.default m
  have hwithin := Progress.within_start (Entries.insert key c.default m)
  have hstep : ∀ {p q : Progress}, WriteAll [⟨key, .conditional c⟩] m (p.claim key) q ↔
      WriteAll [⟨key, .conditional c⟩] (Entries.insert key c.default m) p q := by
    intro p q
    rw [writeAll_singleton, writeAll_singleton]
    exact writes_default_iff optional settled absent hpresent hcases
  rw [writeAll_append_append, writeAll_append_append,
    ← Progress.claim_start_insert absent c.default]
  constructor
  · rintro ⟨p, q, hp, hq, hend⟩
    rw [writeAll_congr hbefore (hnames _ hnotBefore)] at hp
    rw [writeAll_congr hafter (hnames _ hnotAfter)] at hend
    obtain ⟨b, hb, rfl⟩ := (writeAll_claim_iff hbefore hwithin key).mp hp
    exact ⟨b, q, hb, hstep.mp hq, hend⟩
  · rintro ⟨p, q, hp, hq, hend⟩
    rw [← writeAll_congr hafter (hnames _ hnotAfter)] at hend
    refine ⟨p.claim key, q, ?_, hstep.mpr hq, hend⟩
    rw [writeAll_congr hbefore (hnames _ hnotBefore)]
    exact (writeAll_claim_iff hbefore hwithin key).mpr ⟨p, hp, rfl⟩

/-- A mapping without an optional discriminator is checked like the same mapping with the default
under its key, unless the default has a case that is not to apply when the key is absent. -/
theorem check_insert_default {before after : List KeyRule} {out : Value}
    (required : settings.optional = false)
    (declared : t.keys = before ++ [⟨key, .conditional c⟩] ++ after)
    (patternless : Patternless t.keys) (optional : c.optional = true)
    (distinct : key ∉ keyNames before ++ c.names ++ keyNames after)
    (settled : c.default ∈ c.caseValues → c.applyDefaultSpec = true)
    (absent : Entries.get? key m = none) :
    (⟨settings, .mapping t⟩ : Spec).check (.map m) = .ok out ↔
      (⟨settings, .mapping t⟩ : Spec).check (.map (Entries.insert key c.default m)) = .ok out := by
  have hparts := patternless
  rw [declared, Patternless.append_iff, Patternless.append_iff] at hparts
  obtain ⟨⟨hbefore, hkey⟩, hafter⟩ := hparts
  refine Spec.check_mapping_congr required rfl rfl rfl (fun a => ?_) fun a ha k hk => ?_
  · rw [declared]
    exact writeAll_insert_default hbefore hkey hafter optional distinct settled absent
  · have hwithin : a.Within m := within_of_writeAll patternless (Progress.within_start m) ha
    have hnot : key ∉ a.unhandled := fun hmem =>
      Entries.get?_eq_none_iff.mp absent (hwithin key hmem)
    exact get?_insert_of_not_mem hnot c.default m k hk

end Default

namespace Source

def file : Mapping := ⟨[⟨.str "path", .type (.atom (.kind .str))⟩], [], [], "file", false⟩

/-- An optional kind, whose default has a case that asks for a path. -/
def kind (applyDefaultSpec : Bool) : Conditional :=
  ⟨[⟨.str "file", .required, file⟩], true, .str "file", applyDefaultSpec⟩

def table (applyDefaultSpec : Bool) : Mapping :=
  ⟨[⟨.str "kind", .conditional (kind applyDefaultSpec)⟩], [], [], "source", false⟩

def spec (applyDefaultSpec : Bool) : Spec := ⟨.required, .mapping (table applyDefaultSpec)⟩

end Source

theorem check_insert_default_source :
    (Source.spec true).check (.map [(.str "kind", .str "file"), (.str "path", .str "/tmp")]) =
      .ok (.map [(.str "kind", .str "file"), (.str "path", .str "/tmp")]) := by
  have required : Settings.required.optional = false := rfl
  have patternless : Patternless (Source.table true).keys := by decide
  have optional : (Source.kind true).optional = true := rfl
  have absent : Entries.get? (.str "kind") [(.str "path", .str "/tmp")] = none := rfl
  have declared : (Source.table true).keys =
      [] ++ [⟨.str "kind", .conditional (Source.kind true)⟩] ++ [] := rfl
  have distinct : .str "kind" ∉ keyNames [] ++ (Source.kind true).names ++ keyNames [] := by decide
  exact (check_insert_default required declared patternless optional distinct
    (fun _ => rfl) absent).mp rfl

/-- A case that is not to apply when the key is absent applies when the default is written down. -/
theorem check_insert_default_skipped :
    (Source.spec false).check (.map []) = .ok (.map [(.str "kind", .str "file")]) ∧
      (Source.spec false).check (.map (Entries.insert (.str "kind") (.str "file") [])) ≠
        .ok (.map [(.str "kind", .str "file")]) :=
  ⟨rfl, nofun⟩

end Conformance
