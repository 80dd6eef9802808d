import Conformance.Proofs.Mapping.Meaning

/-! # Rewritten keys that meet

A pattern may give a key another form, and that form may be a declared key or the form of a second
key. The entry written last then stands for all of them.
-/

namespace Conformance

open Value (Entries Ascending)

section Declared

variable {declared : List (Value × Base)} {patterns : List PatternRule} {name : String}
  {unhandledOk : Bool} {m : Entries}

/-- A declared key without a failure has an entry with the value of its own rule. -/
theorem declaredItem_of_no_failure {e : Value × Base}
    (hd : ∀ d, e.2.provided? (Entries.get? e.1 m) ≠ some (.defect d))
    (hf : declaredFailure? m e = none) :
    ∃ own, e.2.provided? (Entries.get? e.1 m) = some (.ok own) ∧
      declaredItem? m e = some (e.1, own) := by
  obtain ⟨k, b⟩ := e
  simp only [declaredFailure?, declaredItem?] at hd hf ⊢
  cases hp : b.provided? (Entries.get? k m) with
  | none => simp [hp] at hf
  | some o =>
    cases o with
    | ok own => exact ⟨own, rfl, rfl⟩
    | invalid err => simp [hp] at hf
    | defect d => exact absurd hp (hd d)

theorem get?_declaredEntries (distinct : (declared.map Prod.fst).Nodup)
    (h : ∀ e ∈ declared, ∃ v, declaredItem? m e = some (e.1, v)) {e : Value × Base} {own : Value}
    (he : e ∈ declared) (hown : declaredItem? m e = some (e.1, own)) :
    Entries.get? e.1 (Entries.ofList (declaredEntries declared m)) = some own := by
  refine Entries.includes_ofList_of_nodup ?_ (e.1, own) (List.mem_filterMap.mpr ⟨e, he, hown⟩)
  rw [keys_declaredEntries h]
  exact distinct

/-- Under a declared key stands what a pattern has written there, and the value of its own rule if
none has. The own value is kept just if nothing else is written there. -/
theorem check_get_declared {settings : Settings} {out : Value}
    (required : settings.optional = false) (distinct : (declared.map Prod.fst).Nodup)
    (ascending : Ascending (Entries.keys m))
    (accepted : (⟨settings, .mapping (.typed declared patterns name unhandledOk)⟩ : Spec).check
      (.map m) = .ok out) :
    ∃ o, out = .map o ∧ ∀ e ∈ declared, ∃ own,
      e.2.provided? (Entries.get? e.1 m) = some (.ok own) ∧
      let written := Entries.get? e.1 (Entries.ofList (patternEntries declared patterns m))
      Entries.get? e.1 o = some (written.getD own) ∧
      (Entries.get? e.1 o = some own ↔ ∀ w, written = some w → w = own) := by
  have hrule := Spec.rule_of_check_mapping (Settings.replaces_of_required required _) accepted
  obtain ⟨free, hfailures, rfl⟩ := (check_typed_ok_iff ascending).mp hrule
  simp only [readingFailures, List.append_eq_nil_iff, List.filterMap_eq_nil_iff] at hfailures
  have hentry := fun e he => declaredItem_of_no_failure (free.provided e he) (hfailures.1.1 e he)
  refine ⟨_, rfl, fun e he => ?_⟩
  obtain ⟨own, hprovided, hown⟩ := hentry e he
  have hdeclared := get?_declaredEntries distinct
    (fun e he => (hentry e he).imp fun _ h => h.2) he hown
  refine ⟨own, hprovided, ?_⟩
  intro written
  have hget : Entries.get? e.1 (reading declared patterns m) = some (written.getD own) := by
    rw [reading, Entries.get?_insertAll, hdeclared]
    cases hw : written <;> simp [written, hw]
  refine ⟨hget, ?_⟩
  rw [hget]
  cases written <;> simp

end Declared

namespace Folding

/-- Texts, of which one is written in another way. -/
def lower : Spec :=
  ⟨⟨false, .value .null, .empty, []⟩,
    .scalar (.kind .str)
      (some ⟨⟨⟨[]⟩, fun v => .ok (if v = .str "A" then .str "a" else v)⟩, false⟩)⟩

def patterns : List PatternRule := [⟨.spec lower, .atom (.kind .any)⟩]

def table (declared : List (Value × Base)) : Spec :=
  ⟨⟨false, .value .null, .falsy, []⟩, .mapping (.typed declared patterns "dict" false)⟩

def declared : List (Value × Base) := [(.str "a", .atom (.kind .int))]

def apart : Entries := [(.str "B", .str "x"), (.str "a", .int 1)]

def meeting : Entries := [(.str "A", .str "x"), (.str "a", .int 1)]

end Folding

theorem check_get_declared_apart :
    ∃ o, (Folding.table Folding.declared).check (.map Folding.apart) = .ok (.map o) ∧
      Entries.get? (.str "a") o = some (.int 1) := by
  have hcheck : (Folding.table Folding.declared).check (.map Folding.apart) =
      .ok (.map [(.str "B", .str "x"), (.str "a", .int 1)]) := rfl
  obtain ⟨o, ho, h⟩ := check_get_declared rfl (by decide) (by decide) hcheck
  obtain ⟨own, hprovided, -, hkept⟩ := h _ List.mem_cons_self
  cases hprovided
  exact ⟨o, ho ▸ hcheck, hkept.mpr nofun⟩

/-- The entry of a rewritten key replaces the checked value of the declared key. -/
theorem check_get_declared_meeting :
    ∃ o own, (Folding.table Folding.declared).check (.map Folding.meeting) = .ok (.map o) ∧
      (Base.atom (.kind .int)).provided? (Entries.get? (.str "a") Folding.meeting) =
        some (.ok own) ∧
      Entries.get? (.str "a") o ≠ some own :=
  ⟨[(.str "a", .str "x")], .int 1, rfl, rfl, by decide⟩

/-! ## Tables of patterns -/

/-- The form that each key gets from the first pattern that accepts it, in the order of the keys. -/
def canonicalKeys (patterns : List PatternRule) (m : Entries) : List Value :=
  (Entries.keys m).filterMap fun key => (claimant? patterns key).map Prod.fst

section Patterns

variable {patterns : List PatternRule} {name : String} {m : Entries}

theorem otherKeys_nil (hm : Ascending (Entries.keys m)) : otherKeys [] m = Entries.keys m := by
  rw [otherKeys_eq hm]
  exact List.filter_eq_self.mpr fun _ _ => by simp

/-- A table of patterns alone writes one entry for each key of the mapping, in the order of values.
As many entries remain as the canonical keys are different, of one key the entry written last. -/
theorem check_length {settings : Settings} {out : Value}
    (given : settings.replaces (.map m) = false) (ascending : Ascending (Entries.keys m))
    (accepted : (⟨settings, .mapping (.typed [] patterns name false)⟩ : Spec).check (.map m) =
      .ok out) :
    ∃ o, out = .map o ∧ o = Entries.ofList (patternEntries [] patterns m) ∧
      Entries.keys (patternEntries [] patterns m) = canonicalKeys patterns m ∧
      (canonicalKeys patterns m).length = m.length ∧
      Entries.keys o = Value.members (canonicalKeys patterns m) ∧
      o.length ≤ m.length ∧ (o.length = m.length ↔ (canonicalKeys patterns m).Nodup) := by
  obtain ⟨free, hfailures, rfl⟩ :=
    (check_typed_ok_iff ascending).mp (Spec.rule_of_check_mapping given accepted)
  have hothers := (readingFailures_eq_nil_iff (List.forall_mem_nil _) free).mp hfailures |>.others
  have hentries : Entries.keys (patternEntries [] patterns m) = canonicalKeys patterns m := by
    rw [keys_patternEntries hothers, otherKeys_nil ascending, canonicalKeys]
  have hcanonical : (canonicalKeys patterns m).length = m.length := by
    have hm : m.length = (Entries.keys m).length := (List.length_map _).symm
    rw [canonicalKeys, List.length_filterMap_eq_countP, hm]
    refine List.countP_eq_length.mpr fun key hk => ?_
    rcases hothers key (by rwa [otherKeys_nil ascending]) with ⟨_, _, _, hc, -⟩ | ⟨-, h⟩
    · simp [hc]
    · cases h
  have hkeys : Entries.keys (reading [] patterns m) = Value.members (canonicalKeys patterns m) := by
    rw [← hentries]
    exact Entries.keys_ofList _
  have hlength : (reading [] patterns m).length =
      (Value.members (canonicalKeys patterns m)).length := by
    rw [← hkeys, Entries.keys, List.length_map]
  refine ⟨_, rfl, rfl, hentries, hcanonical, hkeys, ?_, ?_⟩
  · rw [hlength, ← hcanonical]
    exact Value.length_members_le _
  · rw [hlength, ← hcanonical]
    exact Value.length_members_eq_iff

end Patterns

theorem check_length_apart :
    ∃ o, (Folding.table []).check (.map Folding.apart) = .ok (.map o) ∧
      o.length = Folding.apart.length := by
  have hcheck : (Folding.table []).check (.map Folding.apart) =
      .ok (.map [(.str "B", .str "x"), (.str "a", .int 1)]) := rfl
  obtain ⟨o, ho, -, -, -, -, -, hlength⟩ := check_length rfl (by decide) hcheck
  exact ⟨o, ho ▸ hcheck, hlength.mpr (by decide)⟩

/-- Two keys that are rewritten to one leave one entry, and no failure. -/
theorem check_length_meeting :
    ∃ o, (Folding.table []).check (.map Folding.meeting) = .ok (.map o) ∧
      o.length ≠ Folding.meeting.length :=
  ⟨[(.str "a", .int 1)], rfl, by decide⟩

end Conformance
