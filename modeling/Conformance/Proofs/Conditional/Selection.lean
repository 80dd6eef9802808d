import Conformance.Proofs.Mapping.Pass

/-! # Which tables are applied to a mapping

A conditional key applies the table of at most one case, and conditional keys of that table select
cases in turn. What is selected depends on the mapping alone, never on how far its check has come.
-/

namespace Conformance

open Value (Entries)

/-! ## The case that is selected -/

namespace Conditional

def case? (c : Conditional) (v : Value) : Option Case := c.cases.find? fun x => v = x.value

/-- An absent key selects by the default, if the case of the default is to apply. -/
def selector? (c : Conditional) : Option Value → Option Value
  | some v => some v
  | none => if c.optional && c.applyDefaultSpec then some c.default else none

def selected? (c : Conditional) (v? : Option Value) : Option Case := (c.selector? v?).bind c.case?

theorem mem_of_case? {c : Conditional} {v : Value} {x : Case} (h : c.case? v = some x) :
    x ∈ c.cases := List.mem_of_find?_eq_some h

theorem mem_of_selected? {c : Conditional} {v? : Option Value} {x : Case}
    (h : c.selected? v? = some x) : x ∈ c.cases := by
  obtain ⟨v, -, hv⟩ := Option.bind_eq_some_iff.mp h
  exact mem_of_case? hv

theorem case?_eq_none_iff {c : Conditional} {v : Value} : c.case? v = none ↔ v ∉ c.caseValues := by
  simp only [case?, caseValues, List.find?_eq_none, decide_eq_true_eq, List.mem_map, not_exists,
    not_and]
  exact forall₂_congr fun x _ => not_congr eq_comm

end Conditional

theorem runCase_eq (cases : List Case) (v : Value) (m : Entries) (p : Progress) :
    runCase cases v m p =
      (cases.find? fun x => v = x.value).map fun x => x.mapping.run true m p := by
  induction cases with
  | nil => rfl
  | cons x rest ih =>
    obtain ⟨value, settings, mapping⟩ := x
    by_cases hv : v = value
    · simp [runCase, hv]
    · simp [runCase, hv, ih]

namespace Conditional

variable {c : Conditional} {m : Entries} {p : Progress} {v : Value} {x : Case}

theorem take_of_case (h : c.case? v = some x) :
    c.take m p v = (x.mapping.run true m p).asCase v := by
  obtain ⟨cases, optional, default, applyDefaultSpec⟩ := c
  have hrun : runCase cases v m p = some (x.mapping.run true m p) := by
    rw [runCase_eq]
    exact congrArg (Option.map _) h
  simp only [take, hrun]

/-- A value without a case is the default of an optional key or no value of the key. -/
theorem take_of_no_case (h : c.case? v = none) :
    c.take m p v = .ok (if c.optional && v == c.default then .ok v
      else .error (.simple (mustBe (c.cases.map fun x => x.value.render))), p) := by
  obtain ⟨cases, optional, default, applyDefaultSpec⟩ := c
  have hrun : runCase cases v m p = none := by
    rw [runCase_eq]
    exact congrArg (Option.map _) h
  simp only [take, hrun]
  by_cases hd : (optional && v == default) = true
  · obtain rfl : v = default := eq_of_beq (Bool.and_eq_true_iff.mp hd).2
    rw [if_pos hd, if_pos hd, hrun, ite_self]
    rfl
  · rw [if_neg hd, if_neg hd]

theorem fill_of_required (h : c.optional = false) : c.fill? m p = none := by
  obtain ⟨cases, optional, default, applyDefaultSpec⟩ := c
  subst h
  rfl

theorem fill_of_optional (h : c.optional = true) :
    c.fill? m p = some (defaultVerdict
      ((c.selected? none).map fun x => x.mapping.run true m p) c.default p) := by
  obtain ⟨cases, optional, default, applyDefaultSpec⟩ := c
  subst h
  cases applyDefaultSpec with
  | false => rfl
  | true =>
    simp only [fill?, if_true, runCase_eq]
    rfl

end Conditional

/-! ## Tables below a rule -/

/-- The tables of the cases of a rule, of the cases of their rules, and so on. -/
inductive KeyRule.Leads : KeyRule → Mapping → Prop
  | case {key c x} : x ∈ c.cases → Leads ⟨key, .conditional c⟩ x.mapping
  | deeper {key c x r t} : x ∈ c.cases → r ∈ x.mapping.keys → Leads r t →
      Leads ⟨key, .conditional c⟩ t

/-- Cases have no patterns, however deep they lie. -/
def Patternless (keys : List KeyRule) : Prop := ∀ r ∈ keys, ∀ t, r.Leads t → t.patterns = []

theorem KeyRule.not_leads_type {key : Value} {b : Base} {t : Mapping} :
    ¬ Leads ⟨key, .type b⟩ t := nofun

theorem KeyRule.leads_conditional_iff {key : Value} {c : Conditional} {t : Mapping} :
    Leads ⟨key, .conditional c⟩ t ↔
      ∃ x ∈ c.cases, t = x.mapping ∨ ∃ r ∈ x.mapping.keys, r.Leads t := by
  constructor
  · intro h
    cases h with
    | case hx => exact ⟨_, hx, .inl rfl⟩
    | deeper hx hr ht => exact ⟨_, hx, .inr ⟨_, hr, ht⟩⟩
  · rintro ⟨x, hx, rfl | ⟨r, hr, ht⟩⟩
    · exact .case hx
    · exact .deeper hx hr ht

theorem KeyRule.forall_leads_iff {key : Value} {c : Conditional} :
    (∀ t, Leads ⟨key, .conditional c⟩ t → t.patterns = []) ↔
      ∀ x ∈ c.cases, x.mapping.patterns = [] ∧ Patternless x.mapping.keys := by
  constructor
  · intro h x hx
    exact ⟨h _ (.case hx), fun r hr t ht => h t (.deeper hx hr ht)⟩
  · intro h t ht
    obtain ⟨x, hx, rfl | ⟨r, hr, ht⟩⟩ := leads_conditional_iff.mp ht
    · exact (h x hx).1
    · exact (h x hx).2 r hr t ht

mutual

def patternless : List KeyRule → Bool
  | [] => true
  | ⟨_, slot⟩ :: rest => slot.patternless && patternless rest

def Slot.patternless : Slot → Bool
  | .type _ => true
  | .conditional ⟨cases, _, _, _⟩ => patternlessCases cases

def patternlessCases : List Case → Bool
  | [] => true
  | ⟨_, _, ⟨keys, patterns, _, _, _⟩⟩ :: rest =>
    patterns.isEmpty && patternless keys && patternlessCases rest

end

mutual

theorem patternless_iff : (keys : List KeyRule) → (patternless keys = true ↔ Patternless keys)
  | [] => iff_of_true rfl (List.forall_mem_nil _)
  | ⟨key, slot⟩ :: rest => by
    rw [patternless, Bool.and_eq_true, slot_patternless_iff slot key, patternless_iff rest,
      Patternless, Patternless, List.forall_mem_cons]

theorem slot_patternless_iff : (slot : Slot) → ∀ key, (slot.patternless = true ↔
    ∀ t, KeyRule.Leads ⟨key, slot⟩ t → t.patterns = [])
  | .type _, _ => iff_of_true rfl fun _ ht => absurd ht KeyRule.not_leads_type
  | .conditional ⟨cases, optional, default, applyDefaultSpec⟩, _ =>
    (patternlessCases_iff cases).trans
      (KeyRule.forall_leads_iff (c := ⟨cases, optional, default, applyDefaultSpec⟩)).symm

theorem patternlessCases_iff : (cases : List Case) → (patternlessCases cases = true ↔
    ∀ x ∈ cases, x.mapping.patterns = [] ∧ Patternless x.mapping.keys)
  | [] => iff_of_true rfl (List.forall_mem_nil _)
  | ⟨_, _, ⟨keys, patterns, _, _, _⟩⟩ :: rest => by
    rw [patternlessCases, Bool.and_eq_true, Bool.and_eq_true, List.isEmpty_iff,
      patternless_iff keys, patternlessCases_iff rest, List.forall_mem_cons]

end

instance (keys : List KeyRule) : Decidable (Patternless keys) :=
  decidable_of_iff _ (patternless_iff keys)

/-! ## The keys of the tables applied -/

/-- The tables applied to a mapping are the outer one and, for each conditional key of a table
applied, the case that is selected. -/
inductive Mapping.Applied (t : Mapping) (m : Entries) : Mapping → Prop
  | outer : Applied t m t
  | case {u key c x} : Applied t m u → ⟨key, .conditional c⟩ ∈ u.keys →
      c.selected? (Entries.get? key m) = some x → Applied t m x.mapping

def Mapping.Selects (t : Mapping) (m : Entries) (x : Case) : Prop :=
  ∃ u, t.Applied m u ∧ ∃ key c, ⟨key, .conditional c⟩ ∈ u.keys ∧
    c.selected? (Entries.get? key m) = some x

theorem Mapping.Selects.applied {t : Mapping} {m : Entries} {x : Case} (h : t.Selects m x) :
    t.Applied m x.mapping := by
  obtain ⟨u, hu, key, c, hkey, hx⟩ := h
  exact .case hu hkey hx

theorem Mapping.Selects.patternless {t : Mapping} {m : Entries} {x : Case} (h : t.Selects m x)
    (hkeys : Patternless t.keys) : x.mapping.patterns = [] ∧ Patternless x.mapping.keys := by
  have happlied : ∀ u, t.Applied m u → Patternless u.keys := by
    intro u hu
    induction hu with
    | outer => exact hkeys
    | case _ hkey hx ih =>
      exact (KeyRule.forall_leads_iff.mp (ih _ hkey) _ (Conditional.mem_of_selected? hx)).2
  obtain ⟨u, hu, key, c, hkey, hx⟩ := h
  exact KeyRule.forall_leads_iff.mp (happlied u hu _ hkey) x (Conditional.mem_of_selected? hx)

mutual

def appliedNames (m : Entries) : List KeyRule → List Value
  | [] => []
  | ⟨key, slot⟩ :: rest =>
    key :: slot.appliedNames m (Entries.get? key m) ++ appliedNames m rest

def Slot.appliedNames (m : Entries) : Slot → Option Value → List Value
  | .type _, _ => []
  | .conditional c, v? => c.appliedNames m v?

def Conditional.appliedNames (m : Entries) : Conditional → Option Value → List Value
  | ⟨cases, optional, default, applyDefaultSpec⟩, v? =>
    match Conditional.selector? ⟨cases, optional, default, applyDefaultSpec⟩ v? with
    | none => []
    | some v => caseAppliedNames m v cases

def caseAppliedNames (m : Entries) (v : Value) : List Case → List Value
  | [] => []
  | ⟨value, _, ⟨keys, _, _, _, _⟩⟩ :: rest =>
    if v = value then appliedNames m keys else caseAppliedNames m v rest

end

theorem appliedNames_cons (m : Entries) (r : KeyRule) (rest : List KeyRule) :
    appliedNames m (r :: rest) =
      r.key :: r.slot.appliedNames m (Entries.get? r.key m) ++ appliedNames m rest := by
  cases r
  rfl

theorem appliedNames_append (m : Entries) (xs ys : List KeyRule) :
    appliedNames m (xs ++ ys) = appliedNames m xs ++ appliedNames m ys := by
  induction xs with
  | nil => rfl
  | cons r rest ih =>
    rw [List.cons_append, appliedNames_cons, appliedNames_cons, ih]
    simp

theorem mem_appliedNames_cons {m : Entries} {r : KeyRule} {rest : List KeyRule} {k : Value} :
    k ∈ appliedNames m (r :: rest) ↔
      k = r.key ∨ k ∈ r.slot.appliedNames m (Entries.get? r.key m) ∨ k ∈ appliedNames m rest := by
  simp [appliedNames_cons]

theorem caseAppliedNames_eq (m : Entries) (v : Value) (cases : List Case) :
    caseAppliedNames m v cases =
      match cases.find? fun x => v = x.value with
      | none => []
      | some x => appliedNames m x.mapping.keys := by
  induction cases with
  | nil => rfl
  | cons x rest ih =>
    obtain ⟨value, settings, ⟨keys, patterns, post, name, unhandledOk⟩⟩ := x
    by_cases hv : v = value
    · simp [caseAppliedNames, hv]
    · simp [caseAppliedNames, hv, ih]

theorem Conditional.appliedNames_of_selected {m : Entries} {c : Conditional} {v? : Option Value}
    {x : Case} (h : c.selected? v? = some x) :
    c.appliedNames m v? = Conformance.appliedNames m x.mapping.keys := by
  obtain ⟨v, hv, hx⟩ := Option.bind_eq_some_iff.mp h
  obtain ⟨cases, optional, default, applyDefaultSpec⟩ := c
  have hfind : cases.find? (fun x => v = x.value) = some x := hx
  simp only [appliedNames, hv, caseAppliedNames_eq, hfind]

theorem Conditional.appliedNames_of_unselected {m : Entries} {c : Conditional} {v? : Option Value}
    (h : c.selected? v? = none) : c.appliedNames m v? = [] := by
  obtain ⟨cases, optional, default, applyDefaultSpec⟩ := c
  cases hv : selector? ⟨cases, optional, default, applyDefaultSpec⟩ v? with
  | none => simp only [appliedNames, hv]
  | some v =>
    have hfind : cases.find? (fun x => v = x.value) = none := by
      rw [selected?, hv] at h
      exact h
    simp only [appliedNames, hv, caseAppliedNames_eq, hfind]

theorem Mapping.Applied.subset {t u : Mapping} {m : Entries} (h : t.Applied m u) :
    appliedNames m u.keys ⊆ appliedNames m t.keys := by
  induction h with
  | outer => exact List.Subset.refl _
  | @case u key c x _ hkey hselected ih =>
    intro k hk
    apply ih
    obtain ⟨xs, ys, hkeys⟩ := List.append_of_mem hkey
    rw [hkeys, appliedNames_append, List.mem_append, mem_appliedNames_cons]
    refine .inr (.inr (.inl ?_))
    change k ∈ c.appliedNames m (Entries.get? key m)
    rwa [c.appliedNames_of_selected hselected]

mutual

theorem applied_of_mem_appliedNames {t : Mapping} {m : Entries} {k : Value} :
    (keys : List KeyRule) → k ∈ appliedNames m keys → ∀ u, t.Applied m u → keys ⊆ u.keys →
      ∃ u, t.Applied m u ∧ ∃ r ∈ u.keys, r.key = k
  | [], hk, _, _, _ => absurd hk List.not_mem_nil
  | ⟨key, slot⟩ :: rest, hk, u, hu, hsub => by
    obtain ⟨hhead, hrest⟩ := List.cons_subset.mp hsub
    rcases mem_appliedNames_cons.mp hk with rfl | hk | hk
    · exact ⟨u, hu, _, hhead, rfl⟩
    · exact applied_of_mem_slot slot hk u hu hhead
    · exact applied_of_mem_appliedNames rest hk u hu hrest

theorem applied_of_mem_slot {t : Mapping} {m : Entries} {k key : Value} :
    (slot : Slot) → k ∈ slot.appliedNames m (Entries.get? key m) → ∀ u, t.Applied m u →
      ⟨key, slot⟩ ∈ u.keys → ∃ u, t.Applied m u ∧ ∃ r ∈ u.keys, r.key = k
  | .type _, hk, _, _, _ => absurd hk List.not_mem_nil
  | .conditional ⟨cases, optional, default, applyDefaultSpec⟩, hk, u, hu, hkey => by
    change k ∈ Conditional.appliedNames m ⟨cases, optional, default, applyDefaultSpec⟩ _ at hk
    cases hx : Conditional.selected? ⟨cases, optional, default, applyDefaultSpec⟩
        (Entries.get? key m) with
    | none =>
      rw [Conditional.appliedNames_of_unselected hx] at hk
      exact absurd hk List.not_mem_nil
    | some x =>
      rw [Conditional.appliedNames_of_selected hx] at hk
      exact applied_of_mem_cases cases x (Conditional.mem_of_selected? hx) hk
        (.case hu hkey hx)

theorem applied_of_mem_cases {t : Mapping} {m : Entries} {k : Value} :
    (cases : List Case) → ∀ x ∈ cases, k ∈ appliedNames m x.mapping.keys →
      t.Applied m x.mapping → ∃ u, t.Applied m u ∧ ∃ r ∈ u.keys, r.key = k
  | [], _, hx, _, _ => absurd hx List.not_mem_nil
  | ⟨value, settings, ⟨keys, patterns, post, name, unhandledOk⟩⟩ :: rest, x, hx, hk, happlied => by
    rcases List.mem_cons.mp hx with rfl | hx
    · exact applied_of_mem_appliedNames keys hk _ happlied (List.Subset.refl _)
    · exact applied_of_mem_cases rest x hx hk happlied

end

theorem mem_appliedNames_iff {t : Mapping} {m : Entries} {k : Value} :
    k ∈ appliedNames m t.keys ↔ ∃ u, t.Applied m u ∧ ∃ r ∈ u.keys, r.key = k := by
  constructor
  · intro hk
    exact applied_of_mem_appliedNames t.keys hk t .outer (List.Subset.refl _)
  · rintro ⟨u, hu, r, hr, rfl⟩
    apply hu.subset
    obtain ⟨xs, ys, hkeys⟩ := List.append_of_mem hr
    rw [hkeys, appliedNames_append, List.mem_append, mem_appliedNames_cons]
    exact .inr (.inl rfl)

end Conformance
