import Conformance.Proofs.Value.Entries
import Conformance.Spec.Check

/-! # Steps of a pass over a mapping

A pass takes the declared keys one after the other and then offers the keys left over to the
patterns. Every step claims keys, writes entries and notes failures, and a pass is the sum of these.
-/

namespace Conformance

open Value (Entries)

namespace Progress

def claimAll (p : Progress) (keys : List Value) : Progress :=
  { p with unhandled := p.unhandled.filter (· ∉ keys) }

def putAll (p : Progress) (items : List (Value × Value)) : Progress :=
  { p with output := Entries.insertAll items p.output }

def Within (p : Progress) (m : Entries) : Prop := ∀ k ∈ p.unhandled, k ∈ Entries.keys m

variable {p : Progress} {m : Entries}

theorem within_start (m : Entries) : (start m).Within m := fun _ h => h

theorem Within.claimAll (hp : p.Within m) (keys : List Value) : (p.claimAll keys).Within m :=
  fun k h => hp k (List.mem_filter.mp h).1

theorem Within.putAll (hp : p.Within m) (items : List (Value × Value)) :
    (p.putAll items).Within m := hp

theorem claim_eq_claimAll (p : Progress) (k : Value) : p.claim k = p.claimAll [k] := by
  simp [claim, claimAll]

theorem Within.claim (hp : p.Within m) (k : Value) : (p.claim k).Within m := by
  rw [claim_eq_claimAll]
  exact hp.claimAll [k]

theorem put_eq_putAll (p : Progress) (k v : Value) : p.put k v = p.putAll [(k, v)] := rfl

@[simp] theorem putAll_nil (p : Progress) : p.putAll [] = p := rfl

@[simp] theorem claimAll_nil (p : Progress) : p.claimAll [] = p := by simp [claimAll]

@[simp] theorem putAll_putAll (p : Progress) (xs ys : List (Value × Value)) :
    (p.putAll xs).putAll ys = p.putAll (xs ++ ys) := by
  simp [putAll, Entries.insertAll_append]

@[simp] theorem claimAll_claimAll (p : Progress) (xs ys : List Value) :
    (p.claimAll xs).claimAll ys = p.claimAll (xs ++ ys) := by
  simp [claimAll, List.filter_filter, Bool.and_comm]

@[simp] theorem claimAll_putAll (p : Progress) (xs : List Value) (items : List (Value × Value)) :
    (p.putAll items).claimAll xs = (p.claimAll xs).putAll items := rfl

theorem claim_of_absent {k : Value} (hp : p.Within m) (h : Entries.get? k m = none) :
    p.claim k = p := by
  have hk : ∀ k' ∈ p.unhandled, k' ≠ k := by
    rintro k' hk' rfl
    exact Entries.get?_eq_none_iff.mp h (hp k' hk')
  have hf : p.unhandled.filter (· ≠ k) = p.unhandled := by
    simpa [List.filter_eq_self] using hk
  rw [claim, hf]

/-- A key that is present is claimed before its value is looked at. -/
def claimPresent (m : Entries) (key : Value) (p : Progress) : Progress :=
  match Entries.get? key m with
  | some _ => p.claim key
  | none => p

theorem claimPresent_eq (hp : p.Within m) (key : Value) : claimPresent m key p = p.claim key := by
  unfold claimPresent
  cases hv : Entries.get? key m with
  | some v => rfl
  | none => exact (claim_of_absent hp hv).symm

@[simp] theorem output_claimPresent (m : Entries) (key : Value) (p : Progress) :
    (claimPresent m key p).output = p.output := by
  unfold claimPresent
  cases Entries.get? key m <;> rfl

end Progress

/-! ## Declared keys -/

namespace KeyRule

/-- The verdict on the value of a declared key, or none if the key is absent and must not be. -/
def verdict? (m : Entries) (r : KeyRule) (p : Progress) : Option Verdict :=
  match Entries.get? r.key m with
  | some v => some (r.slot.take m (p.claim r.key) v)
  | none => r.slot.fill? m p

def context (m : Entries) (r : KeyRule) : String :=
  match Entries.get? r.key m with
  | some _ => "Invalid value for key " ++ r.key.render
  | none => "Invalid default for key " ++ r.key.render

def step (m : Entries) (r : KeyRule) (p : Pass) : Except Defect Pass :=
  match r.verdict? m p.progress with
  | none =>
    .ok (p.fail (.leaf (some (.key r.key)) ("Missing required mapping key " ++ r.key.render)))
  | some verdict => verdict.map (.record p.failures r.key (r.context m))

end KeyRule

theorem runKeys_cons (r : KeyRule) (rest : List KeyRule) (m : Entries) (p : Pass) :
    runKeys (r :: rest) m p = (r.step m p).bind (runKeys rest m) := by
  obtain ⟨key, slot⟩ := r
  simp only [runKeys, KeyRule.step, KeyRule.verdict?, KeyRule.context]
  cases Entries.get? key m with
  | some v =>
    dsimp only
    cases slot.take m (p.progress.claim key) v <;> rfl
  | none =>
    dsimp only
    cases slot.fill? m p.progress with
    | none => rfl
    | some verdict => cases verdict <;> rfl

theorem runKeys_cons_ok {r : KeyRule} {rest : List KeyRule} {m : Entries} {p q : Pass} :
    runKeys (r :: rest) m p = .ok q ↔ ∃ a, r.step m p = .ok a ∧ runKeys rest m a = .ok q := by
  rw [runKeys_cons]
  cases r.step m p <;> simp [Except.bind]

theorem runKeys_append (xs ys : List KeyRule) (m : Entries) (p : Pass) :
    runKeys (xs ++ ys) m p = (runKeys xs m p).bind (runKeys ys m) := by
  induction xs generalizing p with
  | nil => rfl
  | cons r rest ih =>
    rw [List.cons_append, runKeys_cons, runKeys_cons]
    cases r.step m p with
    | error d => rfl
    | ok a => exact ih a

/-! ## Keys with types -/

namespace Base

def fallback? : Base → Option (Outcome Value)
  | .atom _ => none
  | .spec s => if s.isOptional then some (s.check s.defaultValue) else none

def provided? (b : Base) : Option Value → Option (Outcome Value)
  | some v => some (b.check v)
  | none => b.fallback?

end Base

def KeyRule.typed (e : Value × Base) : KeyRule := ⟨e.1, .type e.2⟩

theorem KeyRule.verdict_type (m : Entries) (e : Value × Base) (p : Progress) :
    (typed e).verdict? m p =
      (e.2.provided? (Entries.get? e.1 m)).map (Outcome.settle (p.claimPresent m e.1)) := by
  obtain ⟨k, b⟩ := e
  simp only [verdict?, typed, Progress.claimPresent]
  cases Entries.get? k m with
  | some v => rfl
  | none =>
    cases b with
    | atom a => rfl
    | spec s =>
      simp only [Slot.fill?, Base.provided?, Base.fallback?]
      split <;> rfl

theorem KeyRule.verdict_typed {m : Entries} {e : Value × Base} {p : Progress} (hp : p.Within m) :
    (typed e).verdict? m p =
      (e.2.provided? (Entries.get? e.1 m)).map (Outcome.settle (p.claim e.1)) := by
  rw [verdict_type, Progress.claimPresent_eq hp]

def declaredItem? (m : Entries) (e : Value × Base) : Option (Value × Value) :=
  match e.2.provided? (Entries.get? e.1 m) with
  | some (.ok v) => some (e.1, v)
  | _ => none

def declaredFailure? (m : Entries) (e : Value × Base) : Option Failure :=
  match e.2.provided? (Entries.get? e.1 m) with
  | none => some (.leaf (some (.key e.1)) ("Missing required mapping key " ++ e.1.render))
  | some (.invalid err) => some (.caused (some (.key e.1)) ((KeyRule.typed e).context m) err)
  | _ => none

theorem step_typed {m : Entries} {e : Value × Base} {p : Pass} (hp : p.progress.Within m)
    (hd : ∀ d, e.2.provided? (Entries.get? e.1 m) ≠ some (.defect d)) :
    (KeyRule.typed e).step m p =
      .ok ⟨(p.progress.claim e.1).putAll (declaredItem? m e).toList,
        p.failures ++ (declaredFailure? m e).toList⟩ := by
  simp only [KeyRule.step, KeyRule.verdict_typed hp, declaredItem?, declaredFailure?]
  cases h : e.2.provided? (Entries.get? e.1 m) with
  | none =>
    have hv : Entries.get? e.1 m = none := by
      cases hv : Entries.get? e.1 m with
      | none => rfl
      | some v =>
        rw [hv] at h
        cases h
    rw [Progress.claim_of_absent hp hv]
    rfl
  | some o =>
    cases o with
    | ok w => simp [Outcome.settle, Except.map, Pass.record, Progress.put_eq_putAll, KeyRule.typed]
    | invalid err => simp [Outcome.settle, Except.map, Pass.record, KeyRule.typed]
    | defect d => exact absurd h (hd d)

theorem step_typed_defect {m : Entries} {e : Value × Base} {d : Defect} {p : Pass}
    (hp : p.progress.Within m) (hd : e.2.provided? (Entries.get? e.1 m) = some (.defect d)) :
    (KeyRule.typed e).step m p = .error d := by
  rw [KeyRule.step, KeyRule.verdict_typed hp, hd]
  rfl

/-- Without defects all typed keys are claimed, and each one writes its entry or notes its
failure. -/
theorem runKeys_typed {m : Entries} {declared : List (Value × Base)} {p : Pass}
    (hp : p.progress.Within m)
    (hd : ∀ e ∈ declared, ∀ d, e.2.provided? (Entries.get? e.1 m) ≠ some (.defect d)) :
    runKeys (declared.map .typed) m p =
      .ok ⟨(p.progress.claimAll (declared.map Prod.fst)).putAll
          (declared.filterMap (declaredItem? m)),
        p.failures ++ declared.filterMap (declaredFailure? m)⟩ := by
  induction declared generalizing p with
  | nil => simp [runKeys]
  | cons e rest ih =>
    obtain ⟨he, hrest⟩ := List.forall_mem_cons.mp hd
    rw [List.map_cons, runKeys_cons, step_typed hp he]
    refine (ih ?_ hrest).trans ?_
    · rw [Progress.claim_eq_claimAll]
      exact (hp.claimAll _).putAll _
    · cases h₁ : declaredItem? m e <;> cases h₂ : declaredFailure? m e <;>
        simp [Progress.claim_eq_claimAll, h₁, h₂]

theorem provided_of_runKeys_typed {m : Entries} {declared : List (Value × Base)} {p q : Pass}
    (hp : p.progress.Within m) (h : runKeys (declared.map .typed) m p = .ok q) :
    ∀ e ∈ declared, ∀ d, e.2.provided? (Entries.get? e.1 m) ≠ some (.defect d) := by
  induction declared generalizing p with
  | nil => simp
  | cons e rest ih =>
    obtain ⟨a, ha, hrest⟩ := runKeys_cons_ok.mp h
    have he : ∀ d, e.2.provided? (Entries.get? e.1 m) ≠ some (.defect d) := by
      intro d hd
      rw [step_typed_defect hp hd] at ha
      cases ha
    refine List.forall_mem_cons.mpr ⟨he, ih ?_ hrest⟩
    rw [step_typed hp he] at ha
    cases ha
    rw [Progress.claim_eq_claimAll]
    exact (hp.claimAll _).putAll _

/-! ## Keys left over -/

section Offers

variable (take : Value → Value → Outcome (Option (Value × Value))) (m : Entries)

/-- What becomes of a key of the mapping that is left over. -/
def offer (key : Value) : Outcome (Option (Value × Value)) :=
  match Entries.get? key m with
  | none => .ok none
  | some v => take key v

def claimedItem? (key : Value) : Option (Value × Value) :=
  match offer take m key with
  | .ok e => e
  | _ => none

def claimedFailure? (key : Value) : Option Failure :=
  match offer take m key with
  | .invalid e =>
    some (.caused (some (.key key))
      ("Value for key " ++ key.render ++ " does not conform with spec") e)
  | _ => none

def isClaimed (key : Value) : Bool :=
  (claimedItem? take m key).isSome || (claimedFailure? take m key).isSome

variable {take m}

theorem claimKeys_cons {key : Value} (hd : ∀ d, offer take m key ≠ .defect d)
    (rest : List Value) (p : Pass) :
    claimKeys take m (key :: rest) p =
      claimKeys take m rest
        ⟨(p.progress.claimAll ([key].filter (isClaimed take m))).putAll
            (claimedItem? take m key).toList,
          p.failures ++ (claimedFailure? take m key).toList⟩ := by
  cases hv : Entries.get? key m with
  | none =>
    have ho : offer take m key = .ok none := by simp [offer, hv]
    simp [claimKeys, hv, isClaimed, claimedItem?, claimedFailure?, ho]
  | some v =>
    have ho : offer take m key = take key v := by simp [offer, hv]
    simp only [claimKeys, hv]
    cases ht : take key v with
    | ok taken =>
      cases taken <;>
        simp [isClaimed, claimedItem?, claimedFailure?, ho, ht, Progress.claim_eq_claimAll,
          Progress.put_eq_putAll]
    | invalid e =>
      simp [isClaimed, claimedItem?, claimedFailure?, ho, ht, Progress.claim_eq_claimAll, Pass.fail]
    | defect d => exact absurd (ho.trans ht) (hd d)

theorem claimKeys_cons_defect {key : Value} {d : Defect} (hd : offer take m key = .defect d)
    (rest : List Value) (p : Pass) : claimKeys take m (key :: rest) p = .error d := by
  cases hv : Entries.get? key m with
  | none => simp [offer, hv] at hd
  | some v =>
    have ht : take key v = .defect d := by simpa [offer, hv] using hd
    simp [claimKeys, hv, ht]

/-- Which defect comes first has nothing to do with the progress so far. -/
theorem claimKeys_error_congr {keys : List Value} {d : Defect} (p q : Pass) :
    claimKeys take m keys p = .error d ↔ claimKeys take m keys q = .error d := by
  induction keys generalizing p q with
  | nil => simp [claimKeys]
  | cons key rest ih =>
    by_cases hkey : ∃ d', offer take m key = .defect d'
    · obtain ⟨d', hd'⟩ := hkey
      rw [claimKeys_cons_defect hd', claimKeys_cons_defect hd']
    · have hfree : ∀ d', offer take m key ≠ .defect d' := fun d' hd' => hkey ⟨d', hd'⟩
      rw [claimKeys_cons hfree, claimKeys_cons hfree]
      exact ih _ _

theorem claimKeys_congr {m' : Entries} {keys : List Value}
    (h : ∀ key ∈ keys, Entries.get? key m = Entries.get? key m') (p : Pass) :
    claimKeys take m keys p = claimKeys take m' keys p := by
  induction keys generalizing p with
  | nil => rfl
  | cons key rest ih =>
    obtain ⟨hkey, hrest⟩ := List.forall_mem_cons.mp h
    simp only [claimKeys, hkey, ih hrest]

/-- Without defects every key offered writes its entry, notes its failure or is left as it is. -/
theorem claimKeys_eq {keys : List Value} {p : Pass}
    (hd : ∀ key ∈ keys, ∀ d, offer take m key ≠ .defect d) :
    claimKeys take m keys p =
      .ok ⟨(p.progress.claimAll (keys.filter (isClaimed take m))).putAll
          (keys.filterMap (claimedItem? take m)),
        p.failures ++ keys.filterMap (claimedFailure? take m)⟩ := by
  induction keys generalizing p with
  | nil => simp [claimKeys]
  | cons key rest ih =>
    obtain ⟨hkey, hrest⟩ := List.forall_mem_cons.mp hd
    rw [claimKeys_cons hkey, ih hrest]
    have hf : [key].filter (isClaimed take m) ++ rest.filter (isClaimed take m) =
        (key :: rest).filter (isClaimed take m) := (List.filter_append [key] rest).symm
    cases h₁ : claimedItem? take m key <;> cases h₂ : claimedFailure? take m key <;>
      simp [h₁, h₂, hf]

theorem offer_of_claimKeys {keys : List Value} {p q : Pass}
    (h : claimKeys take m keys p = .ok q) : ∀ key ∈ keys, ∀ d, offer take m key ≠ .defect d := by
  induction keys generalizing p with
  | nil => simp
  | cons key rest ih =>
    have hkey : ∀ d, offer take m key ≠ .defect d := by
      intro d hd
      rw [claimKeys_cons_defect hd] at h
      cases h
    rw [claimKeys_cons hkey] at h
    exact List.forall_mem_cons.mpr ⟨hkey, ih h⟩

theorem claimedItem_eq_some_iff {key : Value} {e : Value × Value} :
    claimedItem? take m key = some e ↔
      ∃ v, Entries.get? key m = some v ∧ take key v = .ok (some e) := by
  simp only [claimedItem?, offer]
  cases Entries.get? key m with
  | none => simp
  | some v => cases h : take key v <;> simp [h]

theorem claimKeys_ends_iff {keys : List Value} {a p : Progress} :
    claimKeys take m keys ⟨a, []⟩ = .ok ⟨p, []⟩ ↔
      (∀ key ∈ keys, ∀ d, offer take m key ≠ .defect d) ∧
      (∀ key ∈ keys, claimedFailure? take m key = none) ∧
      p = (a.claimAll (keys.filter (isClaimed take m))).putAll
        (keys.filterMap (claimedItem? take m)) := by
  constructor
  · intro h
    have hd := offer_of_claimKeys h
    rw [claimKeys_eq hd] at h
    simp only [Except.ok.injEq, Pass.mk.injEq, List.nil_append, List.filterMap_eq_nil_iff] at h
    exact ⟨hd, h.2, h.1.symm⟩
  · rintro ⟨hd, hf, rfl⟩
    rw [claimKeys_eq hd, List.filterMap_eq_nil_iff.mpr hf]
    rfl

/-- Keys that are all taken are all claimed. -/
theorem claimKeys_all {keys : List Value} (h : ∀ key ∈ keys, ∃ e, offer take m key = .ok (some e))
    (a : Progress) :
    claimKeys take m keys ⟨a, []⟩ =
      .ok ⟨(a.claimAll keys).putAll (keys.filterMap (claimedItem? take m)), []⟩ := by
  have hclaimed : keys.filter (isClaimed take m) = keys := by
    refine List.filter_eq_self.mpr fun key hkey => ?_
    obtain ⟨e, he⟩ := h key hkey
    simp [isClaimed, claimedItem?, he]
  refine claimKeys_ends_iff.mpr ⟨fun key hkey d hd => ?_, fun key hkey => ?_, by rw [hclaimed]⟩
  · obtain ⟨e, he⟩ := h key hkey
    rw [he] at hd
    cases hd
  · obtain ⟨e, he⟩ := h key hkey
    simp [claimedFailure?, he]

end Offers

/-! ## The end of a run -/

/-- What a table makes of a mapping before its post rules are run. -/
def Mapping.pass (t : Mapping) (unhandledOk : Bool) (m : Entries) (p : Progress) :
    Except Defect Pass :=
  (runKeys t.keys m ⟨p, []⟩).bind fun a =>
    (claimKeys (takeKey t.patterns) m a.progress.unhandled a).map
      (·.sealed unhandledOk t.keys t.patterns)

theorem Mapping.run_eq (t : Mapping) (unhandledOk : Bool) (m : Entries) (p : Progress) :
    t.run unhandledOk m p = (t.pass unhandledOk m p).map (·.finish t.post) := by
  obtain ⟨keys, patterns, post, name, ok⟩ := t
  simp only [run, pass, bind, Except.bind, pure, Except.pure]
  cases runKeys keys m ⟨p, []⟩ with
  | error d => rfl
  | ok a =>
    dsimp only
    cases claimKeys (takeKey patterns) m a.progress.unhandled a <;> rfl

theorem Mapping.run_ok_iff {t : Mapping} {unhandledOk : Bool} {m : Entries} {p : Progress}
    {r : Option Invalid × Progress} :
    t.run unhandledOk m p = .ok r ↔
      ∃ a b, runKeys t.keys m ⟨p, []⟩ = .ok a ∧
        claimKeys (takeKey t.patterns) m a.progress.unhandled a = .ok b ∧
        (b.sealed unhandledOk t.keys t.patterns).finish t.post = r := by
  rw [run_eq, pass]
  cases runKeys t.keys m ⟨p, []⟩ with
  | error d => simp [Except.bind, Except.map]
  | ok a =>
    cases h : claimKeys (takeKey t.patterns) m a.progress.unhandled a <;>
      simp [Except.bind, Except.map, h]

theorem Mapping.run_error_iff {t : Mapping} {unhandledOk : Bool} {m : Entries} {p : Progress}
    {d : Defect} :
    t.run unhandledOk m p = .error d ↔
      runKeys t.keys m ⟨p, []⟩ = .error d ∨
        ∃ a, runKeys t.keys m ⟨p, []⟩ = .ok a ∧
          claimKeys (takeKey t.patterns) m a.progress.unhandled a = .error d := by
  rw [run_eq, pass]
  cases runKeys t.keys m ⟨p, []⟩ with
  | error e => simp [Except.bind, Except.map]
  | ok a =>
    cases h : claimKeys (takeKey t.patterns) m a.progress.unhandled a <;>
      simp [Except.bind, Except.map, h]

def leftoverFailures (unhandledOk : Bool) (unhandled : List Value) (keys : List KeyRule)
    (patterns : List PatternRule) : List Failure :=
  if unhandledOk || unhandled.isEmpty then [] else [unhandledFailure unhandled keys patterns]

namespace Pass

theorem sealed_eq (p : Pass) (unhandledOk : Bool) (keys : List KeyRule)
    (patterns : List PatternRule) :
    p.sealed unhandledOk keys patterns =
      ⟨p.progress,
        p.failures ++ leftoverFailures unhandledOk p.progress.unhandled keys patterns⟩ := by
  simp only [Pass.sealed, leftoverFailures]
  cases unhandledOk <;> cases p.progress.unhandled <;> simp [fail]

end Pass

end Conformance
