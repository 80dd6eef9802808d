import Conformance.Proofs.Mapping.Pass
import Conformance.Proofs.Spec.Verdict

/-! # What a table of types and patterns means

Without conditionals and post rules every key stands for itself: a declared key for what its type
says, every other key for the first pattern that accepts it. A pass over the mapping gives just
this.
-/

namespace Conformance

open Value (Entries Ascending)

def Outcome.value? {α : Type} : Outcome α → Option α
  | .ok a => some a
  | _ => none

/-- A table of keys with types and of patterns, without conditionals and post rules. -/
def Mapping.typed (declared : List (Value × Base)) (patterns : List PatternRule) (name : String)
    (unhandledOk : Bool) : Mapping :=
  ⟨declared.map .typed, patterns, [], name, unhandledOk⟩

/-- The canonical key and the type of its value by the first pattern that accepts the key. -/
def claimant? (patterns : List PatternRule) (key : Value) : Option (Value × Base) :=
  patterns.findSome? fun r => (r.pattern.check key).value?.map (·, r.type)

section Reading

variable (declared : List (Value × Base)) (patterns : List PatternRule) (unhandledOk : Bool)
  (m : Entries)

def otherKeys : List Value :=
  Value.members ((Entries.keys m).filter (· ∉ declared.map Prod.fst))

def patternItem? (key : Value) : Option (Value × Value) :=
  match claimant? patterns key, Entries.get? key m with
  | some (key', type), some v => (type.check v).value?.map (key', ·)
  | _, _ => none

def patternFailure? (key : Value) : Option Failure :=
  match claimant? patterns key, Entries.get? key m with
  | some (_, type), some v =>
    match type.check v with
    | .invalid e =>
      some (.caused (some (.key key))
        ("Value for key " ++ key.render ++ " does not conform with spec") e)
    | _ => none
  | _, _ => none

def declaredEntries : List (Value × Value) := declared.filterMap (declaredItem? m)

def patternEntries : List (Value × Value) :=
  (otherKeys declared m).filterMap (patternItem? patterns m)

def unclaimedKeys : List Value :=
  (otherKeys declared m).filter fun key => (claimant? patterns key).isNone

/-- What is written for the declared keys, and over it what the patterns write. -/
def reading : Entries :=
  Entries.insertAll (patternEntries declared patterns m)
    (Entries.ofList (declaredEntries declared m))

/-- Every failure: of declared keys as declared, of claimed keys in the order of values, and of all
keys left over together. -/
def readingFailures : List Failure :=
  declared.filterMap (declaredFailure? m) ++
    (otherKeys declared m).filterMap (patternFailure? patterns m) ++
    leftoverFailures unhandledOk (unclaimedKeys declared patterns m) (declared.map .typed) patterns

/-- No check of a value, default or key that the table asks for breaks off. -/
structure DefectFree : Prop where
  provided : ∀ e ∈ declared, ∀ d, e.2.provided? (Entries.get? e.1 m) ≠ some (.defect d)
  offered : ∀ key ∈ otherKeys declared m, ∀ d, offer (takeKey patterns) m key ≠ .defect d

end Reading

/-! ## The patterns -/

section Patterns

variable {patterns : List PatternRule} {m : Entries}

theorem takeKey_eq {key v : Value} (hd : ∀ d, takeKey patterns key v ≠ .defect d) :
    takeKey patterns key v =
      match claimant? patterns key with
      | none => .ok none
      | some (key', type) => (type.check v).map fun v' => some (key', v') := by
  induction patterns with
  | nil => rfl
  | cons r rest ih =>
    obtain ⟨pattern, type⟩ := r
    simp only [takeKey] at hd ⊢
    cases hc : pattern.check key with
    | ok key' => simp [claimant?, hc, Outcome.value?]
    | invalid e =>
      rw [hc] at hd
      simpa [claimant?, hc, Outcome.value?] using ih hd
    | defect d => exact absurd (by rw [hc]) (hd d)

theorem offer_takeKey {key : Value} (hd : ∀ d, offer (takeKey patterns) m key ≠ .defect d) :
    claimedItem? (takeKey patterns) m key = patternItem? patterns m key ∧
      claimedFailure? (takeKey patterns) m key = patternFailure? patterns m key := by
  simp only [claimedItem?, claimedFailure?, patternItem?, patternFailure?]
  cases hv : Entries.get? key m with
  | none =>
    have ho : offer (takeKey patterns) m key = .ok none := by simp [offer, hv]
    rw [ho]
    cases claimant? patterns key <;> simp
  | some v =>
    have ho : offer (takeKey patterns) m key = takeKey patterns key v := by simp [offer, hv]
    rw [ho] at hd ⊢
    rw [takeKey_eq hd]
    cases claimant? patterns key with
    | none => simp
    | some c =>
      obtain ⟨key', type⟩ := c
      cases hc : type.check v <;> simp [hc, Outcome.map, Outcome.value?]

/-- A key of the mapping is claimed just if some pattern accepts it. -/
theorem isClaimed_takeKey {key : Value} (hk : key ∈ Entries.keys m)
    (hd : ∀ d, offer (takeKey patterns) m key ≠ .defect d) :
    isClaimed (takeKey patterns) m key = (claimant? patterns key).isSome := by
  obtain ⟨v, hv⟩ := Entries.exists_get?_of_mem_keys hk
  obtain ⟨he, hf⟩ := offer_takeKey hd
  have ho : offer (takeKey patterns) m key = takeKey patterns key v := by simp [offer, hv]
  rw [ho] at hd
  have heq := takeKey_eq hd
  rw [isClaimed, he, hf]
  simp only [patternItem?, patternFailure?, hv]
  cases hc : claimant? patterns key with
  | none => rfl
  | some c =>
    obtain ⟨key', type⟩ := c
    rw [hc] at heq
    cases ht : type.check v with
    | ok w => simp [Outcome.value?, ht]
    | invalid e => simp [ht]
    | defect d => exact absurd (heq.trans (by simp [ht, Outcome.map])) (hd d)

end Patterns

/-! ## The pass -/

section Run

variable {declared : List (Value × Base)} {patterns : List PatternRule} {name : String}
  {unhandledOk : Bool} {m : Entries}

theorem otherKeys_eq (hm : Ascending (Entries.keys m)) :
    otherKeys declared m = (Entries.keys m).filter (· ∉ declared.map Prod.fst) :=
  Value.members_of_ascending (List.Pairwise.sublist List.filter_sublist hm)

theorem mem_keys_of_mem_otherKeys {key : Value} (h : key ∈ otherKeys declared m) :
    key ∈ Entries.keys m := (List.mem_filter.mp (Value.mem_members.mp h)).1

def concluded (failures : List Failure) (progress : Progress) : Option Invalid × Progress :=
  match failures with
  | [] => (none, progress)
  | f :: rest => (some (.aggregate "Does not conform with dict schema" f rest), progress)

theorem finish_nil (p : Pass) : p.finish [] = concluded p.failures p.progress := by
  obtain ⟨progress, failures⟩ := p
  cases failures <;> rfl

theorem runKeys_start (hm : Ascending (Entries.keys m)) (hd : DefectFree declared patterns m) :
    runKeys (declared.map .typed) m ⟨.start m, []⟩ =
      .ok ⟨⟨Entries.ofList (declaredEntries declared m), otherKeys declared m⟩,
        declared.filterMap (declaredFailure? m)⟩ := by
  rw [runKeys_typed (Progress.within_start m) hd.provided, otherKeys_eq hm]
  rfl

theorem claimKeys_otherKeys (hd : DefectFree declared patterns m) (output : Entries)
    (failures : List Failure) :
    claimKeys (takeKey patterns) m (otherKeys declared m)
        ⟨⟨output, otherKeys declared m⟩, failures⟩ =
      .ok ⟨⟨Entries.insertAll (patternEntries declared patterns m) output,
          unclaimedKeys declared patterns m⟩,
        failures ++ (otherKeys declared m).filterMap (patternFailure? patterns m)⟩ := by
  have hentries : (otherKeys declared m).filterMap (claimedItem? (takeKey patterns) m) =
      patternEntries declared patterns m :=
    List.filterMap_congr fun key hk => (offer_takeKey (hd.offered key hk)).1
  have hfailures : (otherKeys declared m).filterMap (claimedFailure? (takeKey patterns) m) =
      (otherKeys declared m).filterMap (patternFailure? patterns m) :=
    List.filterMap_congr fun key hk => (offer_takeKey (hd.offered key hk)).2
  have hunclaimed : (otherKeys declared m).filter
      (· ∉ (otherKeys declared m).filter (isClaimed (takeKey patterns) m)) =
      unclaimedKeys declared patterns m := by
    refine List.filter_congr fun key hk => ?_
    have hc := isClaimed_takeKey (mem_keys_of_mem_otherKeys hk) (hd.offered key hk)
    cases h : claimant? patterns key <;> simp [hk, hc, h]
  rw [claimKeys_eq hd.offered, hentries, hfailures]
  simp only [Progress.claimAll, Progress.putAll, hunclaimed]

theorem run_typed (hm : Ascending (Entries.keys m)) (hd : DefectFree declared patterns m) :
    (Mapping.typed declared patterns name unhandledOk).run unhandledOk m (.start m) =
      .ok (concluded (readingFailures declared patterns unhandledOk m)
        ⟨reading declared patterns m, unclaimedKeys declared patterns m⟩) := by
  refine Mapping.run_ok_iff.mpr
    ⟨_, _, runKeys_start hm hd, claimKeys_otherKeys hd _ _, ?_⟩
  rw [Pass.sealed_eq]
  exact finish_nil _

theorem defectFree_of_run {r : Option Invalid × Progress} (hm : Ascending (Entries.keys m))
    (h : (Mapping.typed declared patterns name unhandledOk).run unhandledOk m (.start m) = .ok r) :
    DefectFree declared patterns m := by
  obtain ⟨a, b, ha, hb, -⟩ := Mapping.run_ok_iff.mp h
  have hprovided := provided_of_runKeys_typed (Progress.within_start m) ha
  rw [Mapping.typed, runKeys_typed (Progress.within_start m) hprovided] at ha
  cases ha
  refine ⟨hprovided, ?_⟩
  rw [otherKeys_eq hm]
  exact offer_of_claimKeys hb

/-- A table without conditionals and post rules accepts a mapping if its reading has no failures,
and then gives the reading. -/
theorem check_typed_ok_iff {out : Value} (hm : Ascending (Entries.keys m)) :
    (Rule.mapping (.typed declared patterns name unhandledOk)).check (.map m) = .ok out ↔
      DefectFree declared patterns m ∧ readingFailures declared patterns unhandledOk m = [] ∧
        out = .map (reading declared patterns m) := by
  have hrun : (Rule.mapping (.typed declared patterns name unhandledOk)).check (.map m) =
      ((Mapping.typed declared patterns name unhandledOk).run unhandledOk m (.start m)).close := rfl
  rw [hrun]
  constructor
  · intro h
    cases hr : (Mapping.typed declared patterns name unhandledOk).run unhandledOk m (.start m) with
    | error d => rw [hr] at h; cases h
    | ok r =>
      have hd := defectFree_of_run hm hr
      rw [run_typed hm hd] at h
      refine ⟨hd, ?_⟩
      cases hf : readingFailures declared patterns unhandledOk m with
      | nil =>
        rw [hf] at h
        cases h
        exact ⟨rfl, rfl⟩
      | cons f rest =>
        rw [hf] at h
        cases h
  · rintro ⟨hd, hf, rfl⟩
    rw [run_typed hm hd, hf]
    rfl

end Run

/-! ## Acceptance -/

namespace Base

def Accepts (b : Base) (v : Value) : Prop := ∃ w, b.check v = .ok w

def IsOptional : Base → Prop
  | .atom _ => False
  | .spec s => s.isOptional = true

/-- A specification that has been built, so that its default conforms if it is optional. -/
def Assembled : Base → Prop
  | .atom _ => True
  | .spec s => ∃ rule settings, Spec.assemble rule settings = .ok s

end Base

section Conforms

variable (declared : List (Value × Base)) (patterns : List PatternRule) (unhandledOk : Bool)
  (m : Entries)

/-- A declared key is present with a value of its type, or absent and allowed to be. -/
def DeclaredConforms (e : Value × Base) : Prop :=
  (∃ v, Entries.get? e.1 m = some v ∧ e.2.Accepts v) ∨
    (Entries.get? e.1 m = none ∧ e.2.IsOptional)

/-- The first pattern that accepts a key has a type that accepts its value, or there is none and
keys may be left over. -/
def OtherConforms (key : Value) : Prop :=
  (∃ key' type v, claimant? patterns key = some (key', type) ∧ Entries.get? key m = some v ∧
    type.Accepts v) ∨ (claimant? patterns key = none ∧ unhandledOk = true)

structure Conforms : Prop where
  keys : ∀ e ∈ declared, DeclaredConforms m e
  others : ∀ key ∈ otherKeys declared m, OtherConforms patterns unhandledOk m key

variable {declared patterns unhandledOk m}

theorem declared_cases {e : Value × Base} (ha : e.2.Assembled)
    (hd : ∀ d, e.2.provided? (Entries.get? e.1 m) ≠ some (.defect d)) :
    (DeclaredConforms m e ∧ (∃ v, declaredItem? m e = some (e.1, v)) ∧
        declaredFailure? m e = none) ∨
      (¬ DeclaredConforms m e ∧ ∃ f, declaredFailure? m e = some f) := by
  obtain ⟨k, b⟩ := e
  simp only [DeclaredConforms, declaredItem?, declaredFailure?] at hd ⊢
  cases hv : Entries.get? k m with
  | some v =>
    simp only [Base.provided?, hv] at hd ⊢
    cases hc : b.check v with
    | ok w => exact .inl ⟨.inl ⟨v, rfl, w, hc⟩, ⟨w, rfl⟩, rfl⟩
    | invalid err =>
      refine .inr ⟨?_, _, rfl⟩
      simp [Base.Accepts, hc]
    | defect d => exact absurd (congrArg some hc) (hd d)
  | none =>
    cases b with
    | atom a => exact .inr ⟨by simp [Base.IsOptional], _, rfl⟩
    | spec s =>
      by_cases ho : s.isOptional = true
      · obtain ⟨rule, settings, hs⟩ := ha
        obtain ⟨w, hw⟩ := (Spec.assemble_ok_iff.mp hs).2 ho
        simp [Base.provided?, Base.fallback?, Base.IsOptional, ho, hw]
      · simp [Base.provided?, Base.fallback?, Base.IsOptional, ho]

theorem claimant_cases {key : Value} (hk : key ∈ Entries.keys m)
    (hd : ∀ d, offer (takeKey patterns) m key ≠ .defect d) :
    (claimant? patterns key = none ∧ patternFailure? patterns m key = none) ∨
      ∃ key' type v, claimant? patterns key = some (key', type) ∧ Entries.get? key m = some v ∧
        ((type.Accepts v ∧ patternFailure? patterns m key = none) ∨
          (¬ type.Accepts v ∧ ∃ f, patternFailure? patterns m key = some f)) := by
  obtain ⟨v, hv⟩ := Entries.exists_get?_of_mem_keys hk
  have ho : offer (takeKey patterns) m key = takeKey patterns key v := by simp [offer, hv]
  rw [ho] at hd
  have heq := takeKey_eq hd
  simp only [patternFailure?, hv]
  cases hc : claimant? patterns key with
  | none => exact .inl ⟨rfl, rfl⟩
  | some c =>
    obtain ⟨key', type⟩ := c
    rw [hc] at heq
    refine .inr ⟨key', type, v, rfl, rfl, ?_⟩
    cases ht : type.check v with
    | ok w => exact .inl ⟨⟨w, ht⟩, by simp [ht]⟩
    | invalid e => exact .inr ⟨by simp [Base.Accepts, ht], by simp [ht]⟩
    | defect d => exact absurd (heq.trans (by simp [ht, Outcome.map])) (hd d)

theorem otherConforms_iff {key : Value} (hk : key ∈ Entries.keys m)
    (hd : ∀ d, offer (takeKey patterns) m key ≠ .defect d) :
    OtherConforms patterns unhandledOk m key ↔
      patternFailure? patterns m key = none ∧
        (claimant? patterns key = none → unhandledOk = true) := by
  rcases claimant_cases hk hd with ⟨hc, hf⟩ | ⟨key', type, v, hc, hv, ⟨ha, hf⟩ | ⟨ha, f, hf⟩⟩
  · simp [OtherConforms, hc, hf]
  · simp [OtherConforms, hc, hv, ha, hf]
  · simp [OtherConforms, hc, hv, ha, hf]

theorem patternFailure_isSome_iff {key : Value} (hk : key ∈ Entries.keys m)
    (hd : ∀ d, offer (takeKey patterns) m key ≠ .defect d) :
    (patternFailure? patterns m key).isSome ↔
      ∃ key' type v, claimant? patterns key = some (key', type) ∧ Entries.get? key m = some v ∧
        ¬ type.Accepts v := by
  rcases claimant_cases hk hd with ⟨hc, hf⟩ | ⟨key', type, v, hc, hv, ⟨ha, hf⟩ | ⟨ha, f, hf⟩⟩
  · simp [hc, hf]
  · simp [hc, hv, ha, hf]
  · simp [hc, hv, ha, hf]

theorem leftoverFailures_eq_nil_iff {unhandled : List Value} {keys : List KeyRule}
    {patterns : List PatternRule} :
    leftoverFailures unhandledOk unhandled keys patterns = [] ↔
      (unhandled ≠ [] → unhandledOk = true) := by
  cases unhandledOk <;> cases unhandled <;> simp [leftoverFailures]

theorem readingFailures_eq_nil_iff (assembled : ∀ e ∈ declared, e.2.Assembled)
    (free : DefectFree declared patterns m) :
    readingFailures declared patterns unhandledOk m = [] ↔
      Conforms declared patterns unhandledOk m := by
  simp only [readingFailures, List.append_eq_nil_iff, List.filterMap_eq_nil_iff,
    leftoverFailures_eq_nil_iff]
  constructor
  · rintro ⟨⟨hdeclared, hothers⟩, hleft⟩
    refine ⟨fun e he => ?_, fun key hk => ?_⟩
    · rcases declared_cases (assembled e he) (free.provided e he) with ⟨h, -, -⟩ | ⟨-, f, hf⟩
      · exact h
      · rw [hdeclared e he] at hf
        cases hf
    · refine (otherConforms_iff (mem_keys_of_mem_otherKeys hk) (free.offered key hk)).mpr
        ⟨hothers key hk, fun hc => hleft (List.ne_nil_of_mem (a := key) ?_)⟩
      exact List.mem_filter.mpr ⟨hk, by simp [hc]⟩
  · intro h
    have hothers := fun key hk =>
      (otherConforms_iff (mem_keys_of_mem_otherKeys hk) (free.offered key hk)).mp (h.others key hk)
    refine ⟨⟨fun e he => ?_, fun key hk => (hothers key hk).1⟩, fun hne => ?_⟩
    · rcases declared_cases (assembled e he) (free.provided e he) with ⟨-, -, hf⟩ | ⟨hn, -⟩
      · exact hf
      · exact absurd (h.keys e he) hn
    · obtain ⟨key, hk⟩ := List.exists_mem_of_ne_nil _ hne
      obtain ⟨hk, hc⟩ := List.mem_filter.mp hk
      exact (hothers key hk).2 (Option.isNone_iff_eq_none.mp hc)

/-- Declared keys that all have a value have one entry each. -/
theorem keys_declaredEntries (h : ∀ e ∈ declared, ∃ v, declaredItem? m e = some (e.1, v)) :
    Entries.keys (declaredEntries declared m) = declared.map Prod.fst := by
  rw [Entries.keys, declaredEntries, List.map_filterMap, ← List.filterMap_eq_map]
  refine List.filterMap_congr fun e he => ?_
  obtain ⟨v, hv⟩ := h e he
  simp [hv]

theorem declaredItem_of_conforms (assembled : ∀ e ∈ declared, e.2.Assembled)
    (free : DefectFree declared patterns m) (h : ∀ e ∈ declared, DeclaredConforms m e) :
    ∀ e ∈ declared, ∃ v, declaredItem? m e = some (e.1, v) := by
  intro e he
  rcases declared_cases (assembled e he) (free.provided e he) with ⟨-, hv, -⟩ | ⟨hn, -⟩
  · exact hv
  · exact absurd (h e he) hn

/-- On a conforming mapping every key that some pattern accepts has one entry. -/
theorem keys_patternEntries
    (h : ∀ key ∈ otherKeys declared m, OtherConforms patterns unhandledOk m key) :
    Entries.keys (patternEntries declared patterns m) =
      (otherKeys declared m).filterMap fun key => (claimant? patterns key).map Prod.fst := by
  rw [Entries.keys, patternEntries, List.map_filterMap]
  refine List.filterMap_congr fun key hk => ?_
  rcases h key hk with ⟨key', type, v, hc, hv, w, hw⟩ | ⟨hc, -⟩
  · simp [patternItem?, hc, hv, hw, Outcome.value?]
  · simp [patternItem?, hc]

end Conforms

theorem Spec.check_of_required {settings : Settings} {rule : Rule} {v : Value}
    (required : settings.optional = false) (unconstrained : settings.constraints = [])
    (canonical : ∀ w, rule.canonicalize w = .ok w) :
    (⟨settings, rule⟩ : Spec).check v = rule.check v := by
  rw [check_eq_checkGiven, checkGiven_of_plain unconstrained canonical]
  exact congrArg rule.check (Settings.given_of_kept (Settings.replaces_of_required required v))

/-- A required table without constraints, conditionals and post rules accepts just what conforms key
by key, gives the reading of what it accepts, and of anything else reports every failure at once. -/
theorem check_eq_reading {settings : Settings} {declared : List (Value × Base)}
    {patterns : List PatternRule} {name : String} {unhandledOk : Bool} {m : Entries}
    (required : settings.optional = false) (unconstrained : settings.constraints = [])
    (assembled : ∀ e ∈ declared, e.2.Assembled) (ascending : Ascending (Entries.keys m))
    (free : DefectFree declared patterns m) :
    let s : Spec := ⟨settings, .mapping (.typed declared patterns name unhandledOk)⟩
    ((∃ out, s.check (.map m) = .ok out) ↔ Conforms declared patterns unhandledOk m) ∧
    (Conforms declared patterns unhandledOk m →
      s.check (.map m) = .ok (.map (reading declared patterns m)) ∧
      Entries.keys (declaredEntries declared m) = declared.map Prod.fst ∧
      Entries.keys (patternEntries declared patterns m) =
        (otherKeys declared m).filterMap fun key => (claimant? patterns key).map Prod.fst) ∧
    (¬ Conforms declared patterns unhandledOk m →
      ∃ f rest, readingFailures declared patterns unhandledOk m = f :: rest ∧
        s.check (.map m) = .invalid (.aggregate "Does not conform with dict schema" f rest)) ∧
    (∀ e ∈ declared, (declaredFailure? m e).isSome ↔ ¬ DeclaredConforms m e) ∧
    (∀ key ∈ otherKeys declared m, (patternFailure? patterns m key).isSome ↔
      ∃ key' type v, claimant? patterns key = some (key', type) ∧ Entries.get? key m = some v ∧
        ¬ type.Accepts v) := by
  intro s
  have hs : s.check (.map m) =
      ((Mapping.typed declared patterns name unhandledOk).run unhandledOk m (.start m)).close :=
    Spec.check_of_required required unconstrained fun _ => rfl
  have hnil : readingFailures declared patterns unhandledOk m = [] ↔
      Conforms declared patterns unhandledOk m := readingFailures_eq_nil_iff assembled free
  have hok : Conforms declared patterns unhandledOk m →
      s.check (.map m) = .ok (.map (reading declared patterns m)) := by
    intro h
    rw [hs, run_typed ascending free, hnil.mpr h]
    rfl
  have hfail : ¬ Conforms declared patterns unhandledOk m →
      ∃ f rest, readingFailures declared patterns unhandledOk m = f :: rest ∧
        s.check (.map m) = .invalid (.aggregate "Does not conform with dict schema" f rest) := by
    intro h
    obtain ⟨f, rest, hf⟩ := List.exists_cons_of_ne_nil (mt hnil.mp h)
    refine ⟨f, rest, hf, ?_⟩
    rw [hs, run_typed ascending free, hf]
    rfl
  refine ⟨⟨?_, fun h => ⟨_, hok h⟩⟩, fun h => ⟨hok h, ?_, ?_⟩, hfail, fun e he => ?_,
    fun key hk => patternFailure_isSome_iff (mem_keys_of_mem_otherKeys hk) (free.offered key hk)⟩
  · rintro ⟨out, hout⟩
    by_contra h
    obtain ⟨f, rest, -, hf⟩ := hfail h
    rw [hf] at hout
    cases hout
  · exact keys_declaredEntries (declaredItem_of_conforms assembled free h.keys)
  · exact keys_patternEntries h.others
  · rcases declared_cases (assembled e he) (free.provided e he) with ⟨h, -, hf⟩ | ⟨h, f, hf⟩
    · simp [h, hf]
    · simp [h, hf]

namespace Server

/-- A required text, an optional number, and flags under any other text. -/
def declared : List (Value × Base) :=
  [(.str "host", .atom (.kind .str)),
    (.str "port", .spec ⟨⟨true, .value (.int 80), .empty, []⟩, .scalar (.kind .int) none⟩)]

def patterns : List PatternRule := [⟨.atom (.kind .str), .atom (.kind .bool)⟩]

def request : Entries := [(.str "debug", .bool true), (.str "host", .str "web")]

theorem assembled : ∀ e ∈ declared, e.2.Assembled :=
  List.forall_mem_cons.mpr ⟨trivial, List.forall_mem_cons.mpr
    ⟨⟨.scalar (.kind .int) none, ⟨true, .value (.int 80), .empty, []⟩, rfl⟩, nofun⟩⟩

theorem defectFree : DefectFree declared patterns request where
  provided := List.forall_mem_cons.mpr ⟨nofun, List.forall_mem_cons.mpr ⟨nofun, nofun⟩⟩
  offered := by
    have hk : otherKeys declared request = [.str "debug"] := rfl
    rw [hk]
    exact List.forall_mem_cons.mpr ⟨nofun, nofun⟩

theorem conforms : Conforms declared patterns false request where
  keys := List.forall_mem_cons.mpr ⟨.inl ⟨_, rfl, _, rfl⟩,
    List.forall_mem_cons.mpr ⟨.inr ⟨rfl, rfl⟩, nofun⟩⟩
  others := by
    have hk : otherKeys declared request = [.str "debug"] := rfl
    rw [hk]
    exact List.forall_mem_cons.mpr ⟨.inl ⟨_, _, _, rfl, rfl, _, rfl⟩, nofun⟩

end Server

theorem check_eq_reading_server :
    (⟨⟨false, .value .null, .falsy, []⟩,
        .mapping (.typed Server.declared Server.patterns "server" false)⟩ : Spec).check
      (.map Server.request) =
      .ok (.map [(.str "debug", .bool true), (.str "host", .str "web"), (.str "port", .int 80)]) :=
  ((check_eq_reading rfl rfl Server.assembled (by decide) Server.defectFree).2.1
    Server.conforms).1

end Conformance
