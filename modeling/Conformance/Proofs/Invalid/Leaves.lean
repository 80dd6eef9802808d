import Conformance.Invalid.Issue
import Mathlib.Data.List.Basic

/-! # Leaves of an error

A failure inside an error is addressed by the numbers of the failures that lead to it. The issues of
an error are its failures without a cause, in the order of their addresses.
-/

namespace Conformance

/-- A failure inside an error, with its address and the locations met on the way. -/
structure Occurrence where
  address : List Nat
  trail : List Location
  failure : Failure

namespace Occurrence

def below (i : Nat) (l : Option Location) (x : Occurrence) : Occurrence :=
  ⟨i :: x.address, l.toList ++ x.trail, x.failure⟩

def issue (path : String) (x : Occurrence) : Issue :=
  ⟨x.trail.foldl joinPath path, x.failure.message⟩

theorem issue_below (path : String) (i : Nat) (l : Option Location) (x : Occurrence) :
    (x.below i l).issue path = x.issue (extendPath path l) := by
  cases l <;> rfl

end Occurrence

/-- The failures of an error, those of their causes, and so on. -/
inductive Invalid.Holds : Invalid → Occurrence → Prop
  | direct {e i f} : e.failures[i]? = some f → Holds e ⟨[i], f.location.toList, f⟩
  | deeper {e i f cause x} : e.failures[i]? = some f → f.cause = some cause → Holds cause x →
      Holds e (x.below i f.location)

/-! ## Induction over the causes -/

mutual

/-- What passes from the causes of its failures to an error holds of every error. -/
theorem Invalid.cause_induction {P : Invalid → Prop}
    (h : ∀ e : Invalid, (∀ f ∈ e.failures, ∀ cause, f.cause = some cause → P cause) → P e) :
    (e : Invalid) → P e
  | .mismatch m => h _ (List.forall_mem_singleton.mpr nofun)
  | .simple m => h _ (List.forall_mem_singleton.mpr nofun)
  | .wrapped _ cause => h _ (List.forall_mem_singleton.mpr fun _ hcause => by
      cases hcause
      exact Invalid.cause_induction h cause)
  | .aggregate _ first rest => h _ (List.forall_mem_cons.mpr
      ⟨Failure.cause_induction h first, failures_cause_induction h rest⟩)

theorem Failure.cause_induction {P : Invalid → Prop}
    (h : ∀ e : Invalid, (∀ f ∈ e.failures, ∀ cause, f.cause = some cause → P cause) → P e) :
    (f : Failure) → ∀ cause, f.cause = some cause → P cause
  | .leaf _ _ => nofun
  | .caused _ _ cause => fun _ hcause => by
    cases hcause
    exact Invalid.cause_induction h cause

theorem failures_cause_induction {P : Invalid → Prop}
    (h : ∀ e : Invalid, (∀ f ∈ e.failures, ∀ cause, f.cause = some cause → P cause) → P e) :
    (fs : List Failure) → ∀ f ∈ fs, ∀ cause, f.cause = some cause → P cause
  | [] => List.forall_mem_nil _
  | f :: rest => List.forall_mem_cons.mpr
      ⟨Failure.cause_induction h f, failures_cause_induction h rest⟩

end

/-! ## The list of leaves -/

mutual

def Invalid.leaves : Invalid → List Occurrence
  | .mismatch m => [⟨[0], [], .leaf none m⟩]
  | .simple m => [⟨[0], [], .leaf none m⟩]
  | .wrapped _ cause => cause.leaves.map (.below 0 none)
  | .aggregate _ first rest => first.leaves 0 ++ failureLeaves 1 rest

def Failure.leaves (i : Nat) : Failure → List Occurrence
  | .leaf l m => [⟨[i], l.toList, .leaf l m⟩]
  | .caused l _ cause => cause.leaves.map (.below i l)

def failureLeaves (i : Nat) : List Failure → List Occurrence
  | [] => []
  | f :: rest => f.leaves i ++ failureLeaves (i + 1) rest

end

theorem Invalid.leaves_eq (e : Invalid) : e.leaves = failureLeaves 0 e.failures := by
  cases e <;> simp [leaves, failures, failureLeaves, Failure.leaves]

theorem Invalid.issuesAt_eq (path : String) (e : Invalid) :
    e.issuesAt path = failureIssues path e.failures := by
  cases e <;> simp [issuesAt, failures, failureIssues, Failure.issuesAt, extendPath]

/-! ### Issues -/

theorem failureIssues_eq {fs : List Failure}
    (h : ∀ f ∈ fs, ∀ cause, f.cause = some cause →
      ∀ path, cause.issuesAt path = cause.leaves.map (Occurrence.issue path))
    (path : String) (i : Nat) :
    failureIssues path fs = (failureLeaves i fs).map (Occurrence.issue path) := by
  induction fs generalizing i with
  | nil => rfl
  | cons f rest ih =>
    obtain ⟨hf, hrest⟩ := List.forall_mem_cons.mp h
    rw [failureIssues, failureLeaves, List.map_append, ih hrest (i + 1)]
    cases f with
    | leaf l m => cases l <;> rfl
    | caused l context cause =>
      rw [Failure.issuesAt, Failure.leaves, hf cause rfl, List.map_map]
      refine congrArg (· ++ _) (List.map_congr_left fun x _ => ?_)
      exact (x.issue_below path i l).symm

theorem Invalid.issuesAt_eq_leaves (e : Invalid) :
    ∀ path, e.issuesAt path = e.leaves.map (Occurrence.issue path) := by
  induction e using Invalid.cause_induction with
  | h e ih =>
    intro path
    rw [issuesAt_eq, leaves_eq]
    exact failureIssues_eq ih path 0

/-! ### Members -/

/-- A failure without a cause is its own leaf, any other has the leaves of its cause. -/
theorem Failure.mem_leaves_iff {f : Failure} {i : Nat} {x : Occurrence} :
    x ∈ f.leaves i ↔ (f.cause = none ∧ x = ⟨[i], f.location.toList, f⟩) ∨
      ∃ cause, f.cause = some cause ∧ ∃ y ∈ cause.leaves, x = y.below i f.location := by
  cases f with
  | leaf l m => simp [leaves, cause, location]
  | caused l context c => simp [leaves, cause, location, eq_comm]

theorem mem_failureLeaves_iff {fs : List Failure} {i : Nat} {x : Occurrence} :
    x ∈ failureLeaves i fs ↔ ∃ (j : Nat) (f : Failure), fs[j]? = some f ∧ x ∈ f.leaves (i + j) := by
  induction fs generalizing i with
  | nil => simp [failureLeaves]
  | cons f rest ih =>
    rw [failureLeaves, List.mem_append, ih]
    constructor
    · rintro (hx | ⟨j, g, hg, hx⟩)
      · exact ⟨0, f, rfl, hx⟩
      · refine ⟨j + 1, g, hg, ?_⟩
        rwa [Nat.add_assoc, Nat.add_comm 1 j] at hx
    · rintro ⟨_ | j, g, hg, hx⟩
      · cases hg
        exact .inl hx
      · refine .inr ⟨j, g, hg, ?_⟩
        rwa [Nat.add_assoc, Nat.add_comm 1 j]

theorem Invalid.mem_leaves {e : Invalid} {x : Occurrence} :
    x ∈ e.leaves ↔ ∃ (i : Nat) (f : Failure), e.failures[i]? = some f ∧ x ∈ f.leaves i := by
  rw [leaves_eq, mem_failureLeaves_iff]
  simp only [Nat.zero_add]

theorem Invalid.mem_leaves_iff (e : Invalid) :
    ∀ x, x ∈ e.leaves ↔ e.Holds x ∧ x.failure.cause = none := by
  induction e using Invalid.cause_induction with
  | h e ih =>
    intro x
    rw [mem_leaves]
    constructor
    · rintro ⟨i, f, hf, hx⟩
      rcases Failure.mem_leaves_iff.mp hx with ⟨hnone, rfl⟩ | ⟨cause, hcause, y, hy, rfl⟩
      · exact ⟨.direct hf, hnone⟩
      · obtain ⟨hholds, hnone⟩ := (ih f (List.mem_of_getElem? hf) cause hcause y).mp hy
        exact ⟨.deeper hf hcause hholds, hnone⟩
    · rintro ⟨hholds, hnone⟩
      cases hholds with
      | direct hf => exact ⟨_, _, hf, Failure.mem_leaves_iff.mpr (.inl ⟨hnone, rfl⟩)⟩
      | deeper hf hcause hy =>
        refine ⟨_, _, hf, Failure.mem_leaves_iff.mpr (.inr ⟨_, hcause, _, ?_, rfl⟩)⟩
        exact (ih _ (List.mem_of_getElem? hf) _ hcause _).mpr ⟨hy, hnone⟩

/-! ### Order -/

/-- The order of addresses: of two failures of one error the leaves of the first come first. -/
def Occurrence.Precedes (x y : Occurrence) : Prop := x.address < y.address

theorem Failure.head_address {f : Failure} {i : Nat} {x : Occurrence} (h : x ∈ f.leaves i) :
    ∃ rest, x.address = i :: rest := by
  rcases mem_leaves_iff.mp h with ⟨-, rfl⟩ | ⟨_, -, y, -, rfl⟩
  · exact ⟨[], rfl⟩
  · exact ⟨y.address, rfl⟩

theorem Occurrence.precedes_of_lt {f g : Failure} {i j : Nat} {x y : Occurrence} (hij : i < j)
    (hx : x ∈ f.leaves i) (hy : y ∈ g.leaves j) : x.Precedes y := by
  obtain ⟨xs, hxs⟩ := Failure.head_address hx
  obtain ⟨ys, hys⟩ := Failure.head_address hy
  rw [Precedes, hxs, hys, List.cons_lt_cons_iff]
  exact .inl hij

theorem Occurrence.Precedes.below {x y : Occurrence} (h : x.Precedes y) (i : Nat)
    (l : Option Location) : (x.below i l).Precedes (y.below i l) :=
  List.cons_lt_cons_iff.mpr (.inr ⟨rfl, h⟩)

theorem pairwise_failureLeaves {fs : List Failure}
    (h : ∀ f ∈ fs, ∀ cause, f.cause = some cause → cause.leaves.Pairwise Occurrence.Precedes)
    (i : Nat) : (failureLeaves i fs).Pairwise Occurrence.Precedes := by
  induction fs generalizing i with
  | nil => exact .nil
  | cons f rest ih =>
    obtain ⟨hf, hrest⟩ := List.forall_mem_cons.mp h
    have hhead : (f.leaves i).Pairwise Occurrence.Precedes := by
      cases f with
      | leaf l m => exact List.pairwise_singleton _ _
      | caused l context cause =>
        exact List.pairwise_map.mpr ((hf cause rfl).imp fun hxy => hxy.below i l)
    refine List.pairwise_append.mpr ⟨hhead, ih hrest (i + 1), fun x hx y hy => ?_⟩
    obtain ⟨j, g, -, hy⟩ := mem_failureLeaves_iff.mp hy
    exact Occurrence.precedes_of_lt (by omega) hx hy

theorem Invalid.pairwise_leaves (e : Invalid) : e.leaves.Pairwise Occurrence.Precedes := by
  induction e using Invalid.cause_induction with
  | h e ih =>
    rw [leaves_eq]
    exact pairwise_failureLeaves ih 0

/-! ### Number -/

theorem length_le_failureLeaves {fs : List Failure}
    (h : ∀ f ∈ fs, ∀ cause, f.cause = some cause → 1 ≤ cause.leaves.length) (i : Nat) :
    fs.length ≤ (failureLeaves i fs).length := by
  induction fs generalizing i with
  | nil => exact Nat.le_refl 0
  | cons f rest ih =>
    obtain ⟨hf, hrest⟩ := List.forall_mem_cons.mp h
    have hhead : 1 ≤ (f.leaves i).length := by
      cases f with
      | leaf l m => exact Nat.le_refl 1
      | caused l context cause =>
        rw [Failure.leaves, List.length_map]
        exact hf cause rfl
    have htail := ih hrest (i + 1)
    rw [failureLeaves, List.length_append, List.length_cons]
    omega

theorem Invalid.length_failures_pos (e : Invalid) : 1 ≤ e.failures.length :=
  List.length_pos_iff.mpr e.failures_ne_nil

theorem Invalid.length_failures_le (e : Invalid) : e.failures.length ≤ e.leaves.length := by
  induction e using Invalid.cause_induction with
  | h e ih =>
    rw [leaves_eq]
    refine length_le_failureLeaves (fun f hf cause hcause => ?_) 0
    exact Nat.le_trans (length_failures_pos cause) (ih f hf cause hcause)

/-! ## Flattening -/

/-- An error has a failure, and only itself unless it is an aggregate. Its issues are its failures
without a cause, each one once, in the order of their addresses and under the paths that their
locations are joined to. -/
theorem issues_eq_leaves (e : Invalid) :
    1 ≤ e.failures.length ∧
    (e.isAggregate = true ∨ ∃ f, e.failures = [f] ∧ f.message = e.summary) ∧
    (∃ leaves : List Occurrence,
      leaves.Pairwise (fun x y => x.address < y.address) ∧
      (∀ x, x ∈ leaves ↔ e.Holds x ∧ x.failure.cause = none) ∧
      e.issues = leaves.map fun x => ⟨x.trail.foldl joinPath "", x.failure.message⟩) ∧
    e.failures.length ≤ e.issues.length := by
  have hissues : e.issues = e.leaves.map (Occurrence.issue "") := e.issuesAt_eq_leaves ""
  refine ⟨e.length_failures_pos, ?_, ⟨e.leaves, e.pairwise_leaves, e.mem_leaves_iff, hissues⟩, ?_⟩
  · cases e with
    | aggregate summary first rest => exact .inl rfl
    | _ => exact .inr ⟨_, rfl, rfl⟩
  · rw [hissues, List.length_map]
    exact e.length_failures_le

example : (Invalid.aggregate "list"
    (.caused (some (.index 1)) "item"
      (.wrapped "case" (.aggregate "server" (.leaf (some (.key (.str "port"))) "missing") [])))
    [.leaf (some (.index 3)) "empty"]).issues = [⟨"[1].port", "missing"⟩, ⟨"[3]", "empty"⟩] := by
  decide

end Conformance
