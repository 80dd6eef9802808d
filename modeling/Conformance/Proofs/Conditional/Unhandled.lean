import Conformance.Proofs.Conditional.Pass
import Conformance.Proofs.Mapping.Failures
import Conformance.Proofs.Mapping.Meaning
import Conformance.Proofs.Value.Literals

/-! # The keys left over

The run of a case shares the keys left over with the rules that select it. However deep cases lie
and whether or not they succeed, what is left in the end are the keys that no applied table declares
and no pattern accepts. The failure about them names each by its literal form.
-/

namespace Conformance

open Value (Entries Ascending)

/-! ## Places of failures -/

/-- Failures about the structure of a mapping as a whole, not about one of its keys. -/
def Outcome.unplaced : Outcome Value → List Failure
  | .invalid (.aggregate summary f rest) =>
    if summary = "Does not conform with dict schema" then
      (f :: rest).filter (·.location.isNone)
    else []
  | _ => []

theorem unplaced_enforce (settings : Settings) (v : Value) :
    (settings.enforce v).unplaced = [] := by
  unfold Settings.enforce
  split
  · rfl
  · unfold Constraint.enforce Constraint.violation?
    cases Constraint.broken settings.constraints v with
    | nil => rfl
    | cons message rest =>
      by_cases hone : settings.constraints.length = 1
      · simp only [if_pos hone]
        rfl
      · simp only [if_neg hone]
        rfl

/-- Post rules and constraints report under summaries of their own. -/
theorem unplaced_finish (settings : Settings) (p : Pass) (post : List Post) :
    ((Run.close (.ok (p.finish post))).bind settings.enforce).unplaced =
      p.failures.filter (·.location.isNone) := by
  cases hf : p.failures with
  | cons f rest => simp [Pass.finish, hf, Run.close, Outcome.unplaced]
  | nil =>
    rw [Pass.finish_eq, hf]
    simp only [ending]
    cases (Post.trace post p.progress.output).1 with
    | nil => exact unplaced_enforce settings _
    | cons f rest => rfl

theorem located_of_runKeys {keys : List KeyRule} {m : Entries} {p q : Pass}
    (h : runKeys keys m p = .ok q) (hp : ∀ f ∈ p.failures, f.location.isSome) :
    ∀ f ∈ q.failures, f.location.isSome := by
  obtain ⟨added, hadded, hreports⟩ := reported_of_runKeys h
  rw [hadded]
  refine List.forall_mem_append.mpr ⟨hp, fun f hf => ?_⟩
  obtain ⟨r, -, hr⟩ := hreports f hf
  rw [hr.location]
  rfl

theorem located_of_claimedFailure {take : Value → Value → Outcome (Option (Value × Value))}
    {m : Entries} {keys : List Value} :
    ∀ f ∈ keys.filterMap (claimedFailure? take m), f.location.isSome := by
  intro f hf
  obtain ⟨key, -, hkey⟩ := List.mem_filterMap.mp hf
  obtain ⟨v, e, -, -, rfl⟩ := claimedFailure_eq_some_iff.mp hkey
  rfl

theorem filter_unplaced {located : List Failure} (h : ∀ f ∈ located, f.location.isSome)
    (rest : List Failure) :
    (located ++ rest).filter (·.location.isNone) = rest.filter (·.location.isNone) := by
  have hnone : located.filter (·.location.isNone) = [] :=
    List.filter_eq_nil_iff.mpr fun f hf => by simp [Option.isSome_iff_ne_none.mp (h f hf)]
  rw [List.filter_append, hnone, List.nil_append]

/-! ## What patterns leave -/

theorem claimant?_eq_none_iff {patterns : List PatternRule} {key : Value} :
    claimant? patterns key = none ↔ ∀ r ∈ patterns, ¬ r.pattern.Accepts key := by
  rw [claimant?, List.findSome?_eq_none_iff]
  refine forall₂_congr fun r _ => ?_
  cases h : r.pattern.check key <;> simp [Base.Accepts, Outcome.value?, h]

/-- A pass over the patterns keeps what none of them accepts. -/
theorem unhandled_of_claimKeys {patterns : List PatternRule} {m : Entries} {p q : Pass}
    (hp : p.progress.Within m)
    (h : claimKeys (takeKey patterns) m p.progress.unhandled p = .ok q) :
    q.progress.unhandled =
      p.progress.unhandled.filter fun key => (claimant? patterns key).isNone := by
  have hfree := offer_of_claimKeys h
  rw [claimKeys_eq hfree] at h
  cases h
  refine List.filter_congr fun key hkey => ?_
  have hclaimed := isClaimed_takeKey (hp key hkey) (hfree key hkey)
  cases hc : claimant? patterns key <;> simp [hkey, hclaimed, hc]

/-! ## What the failure says -/

section Names

variable {left named : List Value} {keys keys' : List KeyRule}
  {patterns patterns' : List PatternRule}

/-- The keys left over come first, and then everything that could have taken them. -/
theorem message_unhandledFailure (left : List Value) (keys : List KeyRule)
    (patterns : List PatternRule) :
    (unhandledFailure left keys patterns).message =
      "Keys " ++ ", ".intercalate (left.map Value.render) ++ " are unhandled; valid keys: " ++
        ", ".intercalate (keys.map (·.key.render) ++ patterns.map (·.pattern.typeName)) :=
  rfl

/-- Two such failures with one message are about the same keys, whatever was declared. -/
theorem unhandledFailure_tells (hleft : ∀ key ∈ left, key.Legible)
    (hnamed : ∀ key ∈ named, key.Legible)
    (h : (unhandledFailure named keys' patterns').message =
      (unhandledFailure left keys patterns).message) : named = left := by
  have hcloses : ∀ valid : String,
      Value.Closes (" are unhandled; valid keys: ".toList ++ valid.toList) := fun _ =>
    Value.closes_of_head rfl (by decide)
  have hchars := congrArg String.toList h
  simp only [message_unhandledFailure, String.toList_append, List.append_assoc] at hchars
  exact (Value.renderAll_append_inj hnamed hleft (hcloses _) (hcloses _)
    (List.append_cancel_left hchars)).1

end Names

/-! ## The report -/

section Report

variable {settings : Settings} {t : Mapping} {m : Entries}

/-- The keys of the mapping that no applied table declares and no pattern accepts. -/
def leftover (t : Mapping) (m : Entries) : List Value :=
  ((Entries.keys m).filter (· ∉ appliedNames m t.keys)).filter fun key =>
    (claimant? t.patterns key).isNone

theorem mem_leftover_iff {key : Value} :
    key ∈ leftover t m ↔ key ∈ Entries.keys m ∧
      (¬ ∃ u, t.Applied m u ∧ ∃ r ∈ u.keys, r.key = key) ∧
      ∀ r ∈ t.patterns, ¬ r.pattern.Accepts key := by
  rw [← mem_appliedNames_iff, ← claimant?_eq_none_iff]
  simp only [leftover, List.mem_filter, decide_eq_true_eq, Option.isNone_iff_eq_none, and_assoc]

theorem ascending_leftover (ascending : Ascending (Entries.keys m)) : Ascending (leftover t m) :=
  List.Pairwise.sublist (List.filter_sublist.trans List.filter_sublist) ascending

/-- The failures of a pass over the whole mapping are located but for the one about what is left. -/
theorem failures_of_run (patternless : Patternless t.keys) {r : Option Invalid × Progress}
    (h : t.run t.unhandledOk m (.start m) = .ok r) :
    ∃ (p : Progress) (located : List Failure), (∀ f ∈ located, f.location.isSome) ∧
      r = (⟨p, located ++ leftoverFailures t.unhandledOk (leftover t m) t.keys t.patterns⟩ :
        Pass).finish t.post := by
  obtain ⟨a, b, ha, hb, hfinish⟩ := Mapping.run_ok_iff.mp h
  have hstart : (⟨.start m, []⟩ : Pass).progress.Within m := Progress.within_start m
  have hunhandled := unhandled_of_runKeys patternless hstart ha
  have hwithin : a.progress.Within m := by
    intro key hkey
    rw [hunhandled] at hkey
    exact (List.mem_filter.mp hkey).1
  have hleft : b.progress.unhandled = leftover t m := by
    rw [unhandled_of_claimKeys hwithin hb, hunhandled]
    rfl
  refine ⟨b.progress, b.failures, ?_, ?_⟩
  · rw [claimKeys_eq (offer_of_claimKeys hb)] at hb
    cases hb
    intro f hf
    rcases List.mem_append.mp hf with hf | hf
    · exact located_of_runKeys ha (List.forall_mem_nil _) f hf
    · exact located_of_claimedFailure f hf
  · rw [← hfinish, Pass.sealed_eq, hleft]

/-- Unless it breaks off, the check of a mapping reports the keys that no applied table declares and
no pattern accepts, all of them in one failure and in the order of values, and reports nothing when
there are none. The message shows the literal forms of these keys in their order, and among keys
with forms of their own it shows those of no others. Whether the applied tables find failures of
their own makes no difference. -/
theorem check_unplaced (required : settings.optional = false) (strict : t.unhandledOk = false)
    (patternless : Patternless t.keys) (ascending : Ascending (Entries.keys m))
    (free : ∀ d, (⟨settings, .mapping t⟩ : Spec).check (.map m) ≠ .defect d) :
    ∃ left : List Value, Ascending left ∧
      (∀ key, key ∈ left ↔ key ∈ Entries.keys m ∧
        (¬ ∃ u, t.Applied m u ∧ ∃ r ∈ u.keys, r.key = key) ∧
        ∀ r ∈ t.patterns, ¬ r.pattern.Accepts key) ∧
      ((⟨settings, .mapping t⟩ : Spec).check (.map m)).unplaced =
        (if left = [] then [] else [unhandledFailure left t.keys t.patterns]) ∧
      (unhandledFailure left t.keys t.patterns).message =
        "Keys " ++ ", ".intercalate (left.map Value.render) ++ " are unhandled; valid keys: " ++
          ", ".intercalate (t.keys.map (·.key.render) ++ t.patterns.map (·.pattern.typeName)) ∧
      ∀ named, (∀ key ∈ left, key.Legible) → (∀ key ∈ named, key.Legible) →
        (unhandledFailure named t.keys t.patterns).message =
          (unhandledFailure left t.keys t.patterns).message → named = left := by
  refine ⟨leftover t m, ascending_leftover ascending, fun key => mem_leftover_iff, ?_,
    message_unhandledFailure _ _ _, fun named hleft hnamed => unhandledFailure_tells hleft hnamed⟩
  have hreport : leftoverFailures t.unhandledOk (leftover t m) t.keys t.patterns =
      if leftover t m = [] then [] else [unhandledFailure (leftover t m) t.keys t.patterns] := by
    simp [leftoverFailures, strict]
  have hunplaced : ∀ f ∈ leftoverFailures t.unhandledOk (leftover t m) t.keys t.patterns,
      f.location.isNone := by
    intro f hf
    rw [hreport] at hf
    split at hf
    · exact absurd hf List.not_mem_nil
    · rw [List.mem_singleton.mp hf]
      rfl
  rw [← hreport, Spec.check_mapping_eq required]
  cases hr : t.run t.unhandledOk m (.start m) with
  | error d => exact absurd ((Spec.check_mapping_defect_iff required).mpr hr) (free d)
  | ok r =>
    obtain ⟨p, located, hlocated, rfl⟩ := failures_of_run patternless hr
    rw [unplaced_finish, filter_unplaced hlocated]
    exact List.filter_eq_self.mpr hunplaced

end Report

namespace Delivery

def direct : Mapping := ⟨[⟨.str "door", .type (.atom (.kind .int))⟩], [], [], "direct", false⟩

def relay : Mapping := ⟨[⟨.str "depot", .type (.atom (.kind .str))⟩], [], [], "relay", false⟩

def route : Conditional :=
  ⟨[⟨.str "direct", .required, direct⟩, ⟨.str "relay", .required, relay⟩],
    true, .str "direct", true⟩

def van : Mapping := ⟨[⟨.str "route", .conditional route⟩], [], [], "van", false⟩

def carrier : Conditional := ⟨[⟨.str "van", .required, van⟩], false, .null, false⟩

/-- A carrier that may select a route, which selects in turn, and flags under other texts. -/
def table : Mapping :=
  ⟨[⟨.str "carrier", .conditional carrier⟩], [⟨.atom (.kind .str), .atom (.kind .bool)⟩], [],
    "delivery", false⟩

def spec : Spec := ⟨.required, .mapping table⟩

/-- The route is the default one, its own key does not conform, and that of the other route is free
to be a flag. -/
def request : Entries :=
  [(.int 7, .null), (.int 9, .bool true), (.str "carrier", .str "van"), (.str "depot", .bool true),
    (.str "door", .str "2b")]

end Delivery

theorem check_unplaced_delivery :
    (Delivery.spec.check (.map Delivery.request)).unplaced =
        [unhandledFailure [.int 7, .int 9] Delivery.table.keys Delivery.table.patterns] ∧
      (Delivery.spec.check (.map Delivery.request)).unplaced.map Failure.message =
        ["Keys 7, 9 are unhandled; valid keys: \"carrier\", str"] := by
  have patternless : Patternless Delivery.table.keys := by decide
  have free : ∀ d, Delivery.spec.check (.map Delivery.request) ≠ .defect d := nofun
  obtain ⟨left, hascending, hmem, hunplaced, hmessage, -⟩ :=
    check_unplaced rfl rfl patternless (by decide) free
  have hleft : left = [.int 7, .int 9] := by
    refine hascending.ext (by decide) fun key => ?_
    rw [hmem, ← mem_leftover_iff]
    rfl
  subst hleft
  have hreport : (Delivery.spec.check (.map Delivery.request)).unplaced =
      [unhandledFailure [.int 7, .int 9] Delivery.table.keys Delivery.table.patterns] := hunplaced
  refine ⟨hreport, ?_⟩
  rw [hreport, List.map_singleton, hmessage]
  rfl

end Conformance
