import Conformance.Proofs.Result
import Conformance.Proofs.Stable.Plain
import Conformance.Proofs.Value.Identity
import Conformance.Spec.Check

/-! # Post rules, one after the other

Each rule works on the mapping that the rules before it have left. A rule that fails leaves that
mapping as it is and does not keep later rules from being applied. No rule adds a key or takes one
away, and an update gives a new value to its first reference key alone.
-/

namespace Conformance

open Value (Entries Ascending)

namespace Post

/-! ## One rule -/

section Rule

variable {p : Post} {m m' : Entries} {vs : List Value} {k : Value}

def Finds (p : Post) (m : Entries) (vs : List Value) : Prop :=
  List.Forall₂ (fun k v => Entries.get? k m = some v) p.refKeys vs

theorem missing_eq (p : Post) (m : Entries) :
    p.missing m = p.refKeys.filter (· ∉ Entries.keys m) := by
  refine List.filter_congr fun k _ => ?_
  rw [Bool.eq_iff_iff, Option.isNone_iff_eq_none, Entries.get?_eq_none_iff, decide_eq_true_eq]

theorem missing_eq_nil_iff : p.missing m = [] ↔ ∀ k ∈ p.refKeys, k ∈ Entries.keys m := by
  rw [missing_eq, List.filter_eq_nil_iff]
  simp

theorem exists_finds_iff : (∃ vs, p.Finds m vs) ↔ p.missing m = [] := by
  rw [missing_eq_nil_iff]
  refine Result.exists_forall₂_iff.trans (forall₂_congr fun k _ => ?_)
  rw [← Option.ne_none_iff_exists', ne_eq, Entries.get?_eq_none_iff, not_not]

theorem Finds.missing_eq_nil (h : p.Finds m vs) : p.missing m = [] := exists_finds_iff.mp ⟨vs, h⟩

theorem Finds.first_mem (h : p.Finds m vs) : p.first ∈ Entries.keys m :=
  missing_eq_nil_iff.mp h.missing_eq_nil p.first List.mem_cons_self

theorem Finds.values_eq (h : p.Finds m vs) : p.values m = vs := by
  have hvalues : ∀ {ks vs}, List.Forall₂ (fun k v => Entries.get? k m = some v) ks vs →
      ks.filterMap (fun k => Entries.get? k m) = vs := by
    intro ks vs h
    induction h with
    | nil => rfl
    | cons hk _ ih => rw [List.filterMap_cons, hk, ih]
  exact hvalues h

theorem apply_of_missing (h : p.missing m ≠ []) :
    p.apply m = .error ("Missing ref_keys " ++ Value.renderAll (p.missing m)) := if_pos h

theorem Finds.apply_update (h : p.Finds m vs) {compute : Callback (List Value → Value)}
    {gate : Option (Callback (List Value → Bool))} (action : p.action = .update compute gate) :
    p.apply m =
      .ok (if isOpen gate vs then Entries.insert p.first (compute.run vs) m else m) := by
  rw [apply, if_neg (not_not.mpr h.missing_eq_nil), h.values_eq, action]
  exact (apply_ite Except.ok _ _ _).symm

theorem Finds.apply_test (h : p.Finds m vs) {holds : Callback (List Value → Bool)}
    {message : String} (action : p.action = .test holds message) :
    p.apply m = if holds.run vs then .ok m else .error message := by
  rw [apply, if_neg (not_not.mpr h.missing_eq_nil), h.values_eq, action]

/-- A rule that succeeds leaves the mapping as it is, unless it is an update. -/
theorem apply_ok_cases (h : p.apply m = .ok m') :
    ∃ vs, p.Finds m vs ∧
      (m' = m ∨ ∃ compute gate, p.action = .update compute gate ∧
        m' = Entries.insert p.first (compute.run vs) m) := by
  by_cases hmissing : p.missing m = []
  · obtain ⟨vs, hvs⟩ := exists_finds_iff.mpr hmissing
    refine ⟨vs, hvs, ?_⟩
    cases haction : p.action with
    | update compute gate =>
      rw [hvs.apply_update haction, Except.ok.injEq] at h
      split at h
      · exact .inr ⟨compute, gate, rfl, h.symm⟩
      · exact .inl h.symm
    | test holds message =>
      rw [hvs.apply_test haction] at h
      split at h
      · exact .inl (Except.ok.inj h).symm
      · cases h
  · rw [apply_of_missing hmissing] at h
    cases h

def Rewrites (p : Post) (k : Value) : Prop :=
  p.first = k ∧ ∃ compute gate, p.action = .update compute gate

theorem get?_of_apply (hk : ¬ p.Rewrites k) (h : p.apply m = .ok m') :
    Entries.get? k m' = Entries.get? k m := by
  obtain ⟨vs, -, rfl | ⟨compute, gate, haction, rfl⟩⟩ := apply_ok_cases h
  · rfl
  · exact Entries.get?_insert_of_ne (fun he => hk ⟨he.symm, compute, gate, haction⟩) _ m

/-- What one rule does to a mapping: why it fails, if it does, and what it leaves. -/
inductive Step (p : Post) (m : Entries) : Option String → Entries → Prop where
  | missing (absent : ∃ k ∈ p.refKeys, k ∉ Entries.keys m) :
      Step p m (some ("Missing ref_keys " ++
        Value.renderAll (p.refKeys.filter (· ∉ Entries.keys m)))) m
  | refused {holds message vs} (action : p.action = .test holds message) (found : p.Finds m vs)
      (refuses : holds.run vs = false) : Step p m (some message) m
  | passed {holds message vs} (action : p.action = .test holds message) (found : p.Finds m vs)
      (accepts : holds.run vs = true) : Step p m none m
  | shut {compute gate vs} (action : p.action = .update compute gate) (found : p.Finds m vs)
      (gate : isOpen gate vs = false) : Step p m none m
  | updated {compute gate vs m'} (action : p.action = .update compute gate)
      (found : p.Finds m vs) (gate : isOpen gate vs = true)
      (keys : Entries.keys m' = Entries.keys m)
      (written : Entries.get? p.first m' = some (compute.run vs))
      (kept : ∀ k, k ≠ p.first → Entries.get? k m' = Entries.get? k m) : Step p m none m'

theorem Step.keys_eq {fault : Option String} (h : p.Step m fault m') :
    Entries.keys m' = Entries.keys m := by
  cases h with
  | updated _ _ _ keys => exact keys
  | _ => rfl

def result (p : Post) (m : Entries) : Option String × Entries :=
  match p.apply m with
  | .ok m' => (none, m')
  | .error text => (some text, m)

theorem step_result (canonical : Ascending (Entries.keys m)) :
    p.Step m (p.result m).1 (p.result m).2 := by
  by_cases hmissing : p.missing m = []
  · obtain ⟨vs, hvs⟩ := exists_finds_iff.mpr hmissing
    cases haction : p.action with
    | update compute gate =>
      rw [result, hvs.apply_update haction]
      cases hgate : isOpen gate vs with
      | true =>
        exact .updated haction hvs hgate (Entries.keys_insert_of_mem canonical hvs.first_mem _)
          (Entries.get?_insert_self _ _ m) fun k hk => Entries.get?_insert_of_ne hk _ m
      | false => exact .shut haction hvs hgate
    | test holds message =>
      rw [result, hvs.apply_test haction]
      cases hrun : holds.run vs with
      | true => exact .passed haction hvs hrun
      | false => exact .refused haction hvs hrun
  · rw [result, apply_of_missing hmissing, missing_eq]
    rw [missing_eq_nil_iff] at hmissing
    push Not at hmissing
    exact .missing hmissing

/-- What is found under its keys determines the mapping that an update leaves. -/
theorem Step.result_eq {fault : Option String} (canonical : Ascending (Entries.keys m))
    (h : p.Step m fault m') : p.result m = (fault, m') := by
  cases h with
  | missing absent =>
    have hmissing : p.missing m ≠ [] := by
      intro hnone
      obtain ⟨k, hk, hkm⟩ := absent
      exact hkm (missing_eq_nil_iff.mp hnone k hk)
    rw [result, apply_of_missing hmissing, missing_eq]
  | refused action found refuses => rw [result, found.apply_test action, refuses]; rfl
  | passed action found accepts => rw [result, found.apply_test action, accepts]; rfl
  | shut action found gate => rw [result, found.apply_update action, gate]; rfl
  | @updated compute gate vs _ action found hgate keys written kept =>
    have hkeys := Entries.keys_insert_of_mem canonical found.first_mem (compute.run vs)
    rw [result, found.apply_update action, if_pos hgate]
    refine congrArg (Prod.mk none) (Entries.ext_get? (hkeys ▸ canonical) (keys ▸ canonical) ?_)
    intro k
    rw [Entries.get?_insert]
    split
    · next hk => rw [hk, written]
    · next hk => exact (kept k hk).symm

end Rule

/-! ## All rules -/

section Rules

variable {post : List Post} {m m' : Entries} {k : Value}

/-- What the rules do, each to the mapping that it is given by the ones before it: the reasons of
those that fail, and what is left in the end. -/
inductive Steps : List Post → Entries → List String → Entries → Prop where
  | nil {m : Entries} : Steps [] m [] m
  | cons {p : Post} {rest : List Post} {m m₁ m' : Entries} {fault : Option String}
      {faults : List String} (step : p.Step m fault m₁)
      (later : Steps rest m₁ faults m') : Steps (p :: rest) m (fault.toList ++ faults) m'

theorem applyAll_cons (p : Post) (rest : List Post) (m : Entries) :
    applyAll (p :: rest) m =
      ((p.result m).1.toList.map (.leaf none) ++ (applyAll rest (p.result m).2).1,
        (applyAll rest (p.result m).2).2) := by
  rw [applyAll, result]
  cases p.apply m <;> rfl

theorem Steps.keys_eq {faults : List String} (h : Steps post m faults m') :
    Entries.keys m' = Entries.keys m := by
  induction h with
  | nil => rfl
  | cons step _ ih => exact ih.trans step.keys_eq

theorem exists_steps (canonical : Ascending (Entries.keys m)) :
    ∃ faults m', Steps post m faults m' := by
  induction post generalizing m with
  | nil => exact ⟨[], m, .nil⟩
  | cons p rest ih =>
    have hstep := step_result (p := p) canonical
    obtain ⟨faults, m', hlater⟩ := ih (hstep.keys_eq ▸ canonical)
    exact ⟨_, m', .cons hstep hlater⟩

theorem Steps.applyAll_eq {faults : List String} (canonical : Ascending (Entries.keys m))
    (h : Steps post m faults m') : applyAll post m = (faults.map (.leaf none), m') := by
  induction h with
  | nil => rfl
  | cons step _ ih =>
    rw [applyAll_cons, step.result_eq canonical, ih (step.keys_eq ▸ canonical), List.map_append]

/-- A key that no update gives a new value keeps the one that it has. -/
theorem get?_applyAll (hk : ∀ p ∈ post, ¬ p.Rewrites k) (m : Entries) :
    Entries.get? k (applyAll post m).2 = Entries.get? k m := by
  induction post generalizing m with
  | nil => rfl
  | cons p rest ih =>
    obtain ⟨hp, hrest⟩ := List.forall_mem_cons.mp hk
    rw [applyAll_cons]
    refine (ih hrest _).trans ?_
    unfold result
    cases h : p.apply m with
    | ok m' => exact get?_of_apply hp h
    | error text => rfl

end Rules

end Post

/-- A pass ends without an error if it has no failures and none of its post rules fails. -/
theorem Pass.finish_none_iff {p : Pass} {post : List Post} {p' : Progress} :
    p.finish post = (none, p') ↔
      p.failures = [] ∧ (Post.applyAll post p.progress.output).1 = [] ∧
        p' = { p.progress with output := (Post.applyAll post p.progress.output).2 } := by
  obtain ⟨progress, failures⟩ := p
  cases failures with
  | cons f rest => simp [finish]
  | nil =>
    rcases hall : Post.applyAll post progress.output with ⟨failed, after⟩
    simp only [finish, hall]
    cases failed <;> simp [eq_comm]

theorem Failure.leaf_injective (l : Option Location) : Function.Injective (leaf l) :=
  fun _ _ h => (leaf.inj h).2

/-- Once a pass has no failures, its post rules are applied in their order, each to what the ones
before it have left, and every rule that fails is reported once. The keys stay what they are, and
so does what is found under a key that no update begins with. -/
theorem Pass.finish_steps {post : List Post} {p : Progress}
    (canonical : Ascending (Entries.keys p.output)) :
    ∃ faults out,
      (∀ fs o, Post.Steps post p.output fs o ↔ fs = faults ∧ o = out) ∧
      Entries.keys out = Entries.keys p.output ∧
      (∀ k, (∀ r ∈ post, ¬ r.Rewrites k) → Entries.get? k out = Entries.get? k p.output) ∧
      (⟨p, []⟩ : Pass).finish post =
        (if faults = [] then none
          else some (.ofFailures "Post processing has failed" (faults.map (.leaf none))),
          { p with output := out }) := by
  obtain ⟨faults, out, h⟩ : ∃ faults out, Post.Steps post p.output faults out :=
    Post.exists_steps canonical
  have hall := h.applyAll_eq canonical
  refine ⟨faults, out, fun fs o => ⟨fun h' => ?_, ?_⟩, h.keys_eq, fun k hk => ?_, ?_⟩
  · have hsame := (h'.applyAll_eq canonical).symm.trans hall
    exact ⟨(Failure.leaf_injective none).list_map (congrArg Prod.fst hsame),
      congrArg Prod.snd hsame⟩
  · rintro ⟨rfl, rfl⟩
    exact h
  · have hget := Post.get?_applyAll hk p.output
    rwa [hall] at hget
  · rw [finish]
    dsimp only
    rw [hall]
    cases faults <;> rfl

namespace Shift

def labelled (i : Nat) (f : List Value → Bool) : Callback (List Value → Bool) := ⟨⟨[i]⟩, f⟩

def rising : List Value → Bool
  | [.int a, .int b] => a < b
  | _ => false

/-- The rules of a shift: it has a limit, does not end before it begins, is not empty, has a length
if it is none, and is shown from its beginning to its end whatever these are. -/
def rules : List Post :=
  [⟨.str "end", [.str "limit"], .test (labelled 0 fun _ => true) "is unlimited"⟩,
    ⟨.str "end", [.str "begin"],
      .update ⟨⟨[1]⟩, fun vs => vs.getLastD .null⟩
        (some (labelled 2 fun vs => rising vs))⟩,
    ⟨.str "begin", [.str "end"], .test (labelled 3 rising) "is empty"⟩,
    ⟨.str "length", [.str "begin", .str "end"], .update ⟨⟨[4]⟩, fun _ => .int 8⟩
      (some (labelled 5 fun vs => rising vs.tail))⟩,
    ⟨.str "shown", [.str "begin", .str "end"], .update ⟨⟨[6]⟩, fun vs => .list vs.tail⟩ none⟩]

def given : Entries :=
  [(.str "begin", .int 17), (.str "end", .int 9), (.str "length", .int 0), (.str "shown", .null)]

/-- What the rules leave: the end has moved to the beginning, and so it is shown. -/
def settled : Entries :=
  [(.str "begin", .int 17), (.str "end", .int 17), (.str "length", .int 0),
    (.str "shown", .list [.int 17, .int 17])]

end Shift

theorem finish_steps_shift :
    Post.Steps Shift.rules Shift.given ["Missing ref_keys \"limit\"", "is empty"]
      Shift.settled := by
  have canonical : Ascending (Entries.keys Shift.given) := by decide
  obtain ⟨faults, out, hsteps, -, -, hfinish⟩ :=
    @Pass.finish_steps Shift.rules ⟨Shift.given, []⟩ canonical
  have hend : (⟨⟨Shift.given, []⟩, []⟩ : Pass).finish Shift.rules =
      (some (.aggregate "Post processing has failed"
        (.leaf none "Missing ref_keys \"limit\"") [.leaf none "is empty"]),
        ⟨Shift.settled, []⟩) := rfl
  rw [hend, Prod.mk.injEq, Progress.mk.injEq] at hfinish
  obtain ⟨herror, rfl, -⟩ := hfinish
  refine (hsteps _ _).mpr ⟨(Failure.leaf_injective none).list_map ?_, rfl⟩
  cases faults with
  | nil => cases herror
  | cons text rest =>
    rw [if_neg (List.cons_ne_nil text rest), Option.some.injEq] at herror
    exact congrArg Invalid.failures herror

end Conformance
