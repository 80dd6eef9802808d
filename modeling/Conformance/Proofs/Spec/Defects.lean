import Conformance.Proofs.Mapping.Meaning
import Conformance.Proofs.Spec.Gathering

/-! # The first defect ends a check

A collection, a sequence and a table check what they hold in a fixed order. The first of these
checks that breaks off is the result of the whole, whatever has been refused before and after it.
-/

namespace Conformance

open Value (Entries Ascending)

/-! ## Defects of outcomes and of passes -/

def Outcome.defect? {α : Type} : Outcome α → Option Defect
  | .defect d => some d
  | _ => none

theorem Outcome.defect?_eq_some_iff {α : Type} {o : Outcome α} {d : Defect} :
    o.defect? = some d ↔ o = .defect d := by
  cases o <;> simp [defect?]

theorem Outcome.defect?_map {α β : Type} (f : α → β) (o : Outcome α) :
    (o.map f).defect? = o.defect? := by
  cases o <;> rfl

theorem Outcome.ne_defect {α : Type} {o : Outcome α} (h : o.defect? = none) (d : Defect) :
    o ≠ .defect d := by
  rintro rfl
  cases h

def brokenBy {α : Type} : Except Defect α → Option Defect
  | .error d => some d
  | .ok _ => none

theorem brokenBy_map {α β : Type} (f : α → β) (x : Except Defect α) :
    brokenBy (x.map f) = brokenBy x := by
  cases x <;> rfl

def firstDefect? (checks : List (Outcome Value)) : Option Defect :=
  checks.findSome? Outcome.defect?

theorem firstDefect?_append (xs ys : List (Outcome Value)) :
    firstDefect? (xs ++ ys) = (firstDefect? xs).or (firstDefect? ys) := List.findSome?_append

/-- Everything before the first defect is a value or a failure. -/
theorem firstDefect?_eq_some_iff {checks : List (Outcome Value)} {d : Defect} :
    firstDefect? checks = some d ↔
      ∃ before after, checks = before ++ .defect d :: after ∧ ∀ o ∈ before, o.defect? = none := by
  rw [firstDefect?, List.findSome?_eq_some_iff]
  constructor
  · rintro ⟨before, o, after, hchecks, ho, hbefore⟩
    obtain rfl := Outcome.defect?_eq_some_iff.mp ho
    exact ⟨before, after, hchecks, hbefore⟩
  · rintro ⟨before, after, hchecks, hbefore⟩
    exact ⟨before, .defect d, after, hchecks, rfl, hbefore⟩

theorem exists_firstDefect?_iff {checks : List (Outcome Value)} :
    (∃ d, firstDefect? checks = some d) ↔ ∃ d, .defect d ∈ checks := by
  rw [← Option.isSome_iff_exists, firstDefect?, List.findSome?_isSome_iff]
  simp only [Option.isSome_iff_exists, Outcome.defect?_eq_some_iff]
  constructor
  · rintro ⟨o, ho, d, rfl⟩
    exact ⟨d, ho⟩
  · rintro ⟨d, hd⟩
    exact ⟨_, hd, d, rfl⟩

/-! ## Elements -/

theorem brokenBy_gatherOne (place : Nat) (context : String) (o : Outcome Value)
    (rest : Gathered) :
    brokenBy (gatherOne place context o rest) = o.defect?.or (brokenBy rest) := by
  cases o <;> cases rest <;> rfl

theorem brokenBy_gatherAnswers (context : String) (place : Nat) (answers : List (Outcome Value)) :
    brokenBy (gatherAnswers context place answers) = firstDefect? answers := by
  induction answers generalizing place with
  | nil => rfl
  | cons a rest ih =>
    rw [gatherAnswers, brokenBy_gatherOne, ih, ← List.singleton_append, firstDefect?_append]
    cases a <;> rfl

theorem brokenBy_gather (check : Value → Outcome Value) (place : Nat) (items : List Value) :
    brokenBy (gather check place items) = firstDefect? (items.map check) := by
  rw [gather_eq, brokenBy_gatherAnswers]

theorem brokenBy_checkPositions (place : Nat) (positions : List Base) (items : List Value) :
    brokenBy (checkPositions place positions items) =
      firstDefect? (List.zipWith Base.check positions items) := by
  rw [checkPositions_eq, brokenBy_gatherAnswers]

theorem Gathered.defect?_close (summary : String) (container : Container) (g : Gathered) :
    (g.close summary container).defect? = brokenBy g := by
  rcases g with d | ⟨checked, _ | ⟨f, rest⟩⟩ <;> rfl

/-! ## Keys -/

/-- The checks of one key that is not declared: the patterns up to the first that accepts the key,
and then the type of its value. -/
def patternChecks : List PatternRule → Value → Value → List (Outcome Value)
  | [], _, _ => []
  | ⟨pattern, type⟩ :: rest, key, v =>
    match pattern.check key with
    | .ok key' => [.ok key', type.check v]
    | .invalid e => .invalid e :: patternChecks rest key v
    | .defect d => [.defect d]

theorem defect?_takeKey (patterns : List PatternRule) (key v : Value) :
    (takeKey patterns key v).defect? = firstDefect? (patternChecks patterns key v) := by
  induction patterns with
  | nil => rfl
  | cons r rest ih =>
    obtain ⟨pattern, type⟩ := r
    rw [takeKey, patternChecks]
    cases pattern.check key with
    | ok key' =>
      dsimp only
      rw [Outcome.defect?_map]
      cases type.check v <;> rfl
    | invalid e => exact ih
    | defect d => rfl

section Keys

variable (declared : List (Value × Base)) (patterns : List PatternRule) (m : Entries)

/-- The checks of the declared keys, of a value that is present and of the default of one that is
not. -/
def declaredChecks : List (Outcome Value) :=
  declared.filterMap fun e => e.2.provided? (Entries.get? e.1 m)

def otherChecks : List (Outcome Value) :=
  (otherKeys declared m).flatMap fun key =>
    match Entries.get? key m with
    | none => []
    | some v => patternChecks patterns key v

variable {declared patterns m}

theorem defect?_offer (key : Value) :
    (offer (takeKey patterns) m key).defect? = firstDefect?
      (match Entries.get? key m with
        | none => []
        | some v => patternChecks patterns key v) := by
  unfold offer
  cases Entries.get? key m with
  | none => rfl
  | some v => exact defect?_takeKey patterns key v

theorem brokenBy_runKeys_typed {p : Pass} (hp : p.progress.Within m) :
    brokenBy (runKeys (declared.map .typed) m p) = firstDefect? (declaredChecks declared m) := by
  induction declared generalizing p with
  | nil => rfl
  | cons e rest ih =>
    rw [List.map_cons, runKeys_cons, declaredChecks, List.filterMap_cons]
    by_cases hdefect : ∃ d, e.2.provided? (Entries.get? e.1 m) = some (.defect d)
    · obtain ⟨d, hd⟩ := hdefect
      rw [step_typed_defect hp hd, hd]
      rfl
    · have hfree : ∀ d, e.2.provided? (Entries.get? e.1 m) ≠ some (.defect d) :=
        fun d hd => hdefect ⟨d, hd⟩
      rw [step_typed hp hfree]
      refine (ih ?_).trans ?_
      · rw [Progress.claim_eq_claimAll]
        exact (hp.claimAll _).putAll _
      · rcases hv : e.2.provided? (Entries.get? e.1 m) with _ | (v | err | d)
        · rfl
        · rfl
        · rfl
        · exact absurd hv (hfree d)

theorem brokenBy_claimKeys (keys : List Value) (p : Pass) :
    brokenBy (claimKeys (takeKey patterns) m keys p) = firstDefect? (keys.flatMap fun key =>
      match Entries.get? key m with
      | none => []
      | some v => patternChecks patterns key v) := by
  induction keys generalizing p with
  | nil => rfl
  | cons key rest ih =>
    rw [List.flatMap_cons, firstDefect?_append, ← defect?_offer]
    cases hoffer : (offer (takeKey patterns) m key).defect? with
    | some d =>
      rw [claimKeys_cons_defect (Outcome.defect?_eq_some_iff.mp hoffer)]
      rfl
    | none =>
      rw [claimKeys_cons (Outcome.ne_defect hoffer), Option.none_or]
      exact ih _

/-- A table without conditionals breaks off on the first defect of its keys, before post rules. -/
theorem Mapping.brokenBy_run {post : List Post} {name : String} {ok unhandledOk : Bool}
    (hm : Ascending (Entries.keys m)) :
    brokenBy ((⟨declared.map .typed, patterns, post, name, ok⟩ : Mapping).run unhandledOk m
      (.start m)) =
      firstDefect? (declaredChecks declared m ++ otherChecks declared patterns m) := by
  have hstart : (⟨.start m, []⟩ : Pass).progress.Within m := Progress.within_start m
  have hkeys : brokenBy (runKeys (declared.map .typed) m ⟨.start m, []⟩) =
      firstDefect? (declaredChecks declared m) := brokenBy_runKeys_typed hstart
  rw [run_eq, brokenBy_map, pass, firstDefect?_append, ← hkeys]
  cases hrun : runKeys (declared.map .typed) m ⟨.start m, []⟩ with
  | error d => rfl
  | ok a =>
    have hfree := provided_of_runKeys_typed hstart hrun
    rw [runKeys_typed hstart hfree] at hrun
    cases hrun
    rw [otherChecks, otherKeys_eq hm]
    exact (brokenBy_map _ _).trans (brokenBy_claimKeys _ _)

end Keys

theorem Run.defect?_close (r : Run) : r.close.defect? = brokenBy r := by
  rcases r with d | ⟨_ | e, p⟩ <;> rfl

/-! ## Whole rules -/

/-- The checks of what a value of the right shape holds, in the order in which a rule asks for
them. -/
inductive Rule.Checks : Rule → Value → List (Outcome Value) → Prop
  | iter {types container v items} : v.elements? = some items →
      Checks (.iter types container) v (items.map (Base.checkAny types))
  | seq {positions container v items} : v.sequence? = some items →
      items.length = positions.length →
      Checks (.seq positions container) v (List.zipWith Base.check positions items)
  | mapping {declared patterns post name unhandledOk m} : Ascending (Entries.keys m) →
      Checks (.mapping ⟨declared.map .typed, patterns, post, name, unhandledOk⟩) (.map m)
        (declaredChecks declared m ++ otherChecks declared patterns m)

namespace Rule

variable {r : Rule} {v : Value} {checks : List (Outcome Value)}

theorem Checks.defect? (h : r.Checks v checks) : (r.check v).defect? = firstDefect? checks := by
  cases h with
  | iter helements =>
    rw [Rule.check, helements]
    exact (Gathered.defect?_close _ _ _).trans (brokenBy_gather _ 0 _)
  | seq hsequence hlength =>
    rw [Rule.check, hsequence]
    dsimp only
    rw [if_pos hlength]
    exact (Gathered.defect?_close _ _ _).trans (brokenBy_checkPositions 0 _ _)
  | mapping hm => exact (Run.defect?_close _).trans (Mapping.brokenBy_run hm)

theorem Checks.canonicalize (h : r.Checks v checks) (w : Value) : r.canonicalize w = .ok w := by
  cases h <;> rfl

def withPost (post : List Post) : Rule → Rule
  | .mapping t => .mapping { t with post }
  | r => r

theorem Checks.withPost (h : r.Checks v checks) (post : List Post) :
    (r.withPost post).Checks v checks := by
  cases h with
  | iter helements => exact .iter helements
  | seq hsequence hlength => exact .seq hsequence hlength
  | mapping hm => exact .mapping hm

end Rule

/-- Neither constraints nor the canonical form of a collection add a defect. -/
theorem Spec.defect?_check {s : Spec} {v : Value} {checks : List (Outcome Value)}
    (given : s.settings.replaces v = false) (h : s.rule.Checks v checks) :
    (s.check v).defect? = (s.rule.check v).defect? := by
  obtain ⟨settings, rule⟩ := s
  rw [Spec.check, Settings.given_of_kept given]
  cases rule.check v with
  | invalid e => rfl
  | defect d => rfl
  | ok w =>
    rw [Outcome.ok_bind]
    cases hw : settings.enforce w with
    | ok u =>
      rw [Outcome.ok_bind, h.canonicalize]
      rfl
    | invalid e => rfl
    | defect d => exact absurd hw (settings.enforce_ne_defect w d)

/-- A collection, a sequence of the right length and a table without conditionals end with a defect
just if one of their checks does, and then with the first one: whatever else is refused, and with
whatever post rules. -/
theorem check_first_defect {s : Spec} {v : Value} {checks : List (Outcome Value)}
    (given : s.settings.replaces v = false) (asked : s.rule.Checks v checks) :
    ((∃ d, s.rule.check v = .defect d) ↔ ∃ d, .defect d ∈ checks) ∧
    ∀ d, (s.rule.check v = .defect d ↔
        ∃ before after, checks = before ++ .defect d :: after ∧
          ∀ o ∈ before, o.defect? = none) ∧
      (s.check v = .defect d ↔ s.rule.check v = .defect d) ∧
      ∀ post, (s.rule.withPost post).check v = .defect d ↔ s.rule.check v = .defect d := by
  have hfirst : ∀ d, s.rule.check v = .defect d ↔ firstDefect? checks = some d := by
    intro d
    rw [← Outcome.defect?_eq_some_iff, asked.defect?]
  refine ⟨?_, fun d => ⟨?_, ?_, fun post => ?_⟩⟩
  · rw [← exists_firstDefect?_iff]
    exact exists_congr hfirst
  · rw [hfirst, firstDefect?_eq_some_iff]
  · rw [← Outcome.defect?_eq_some_iff, Spec.defect?_check given asked, Outcome.defect?_eq_some_iff]
  · rw [hfirst, ← Outcome.defect?_eq_some_iff, (asked.withPost post).defect?]

namespace Station

def measurement : Spec :=
  ⟨.required, .scalar (.kind .int) (some ⟨⟨⟨[]⟩, fun _ => .error (.other ⟨"offline"⟩)⟩, false⟩)⟩

/-- A name, measurements under any other text, and a post rule that nothing meets. -/
def spec : Spec :=
  ⟨.required, .mapping ⟨[(.str "name", .atom (.kind .str))].map .typed,
    [⟨.atom (.kind .str), .spec measurement⟩],
    [⟨.str "name", [], .test ⟨⟨[1]⟩, fun _ => false⟩ "is closed"⟩], "station", false⟩⟩

def day : Entries := [(.str "name", .int 4), (.str "noon", .int 21), (.str "rain", .str "no")]

end Station

/-- The name is refused before the measurement breaks off, and the rain would be after it. -/
theorem check_first_defect_station :
    Station.spec.check (.map Station.day) = .defect ⟨"offline"⟩ := by
  have asked : Station.spec.rule.Checks (.map Station.day) _ := .mapping (by decide)
  obtain ⟨hfirst, hspec, -⟩ := (check_first_defect rfl asked).2 ⟨"offline"⟩
  refine hspec.mpr (hfirst.mpr ⟨[.invalid (.mismatch "Must be str"), .ok (.str "noon")],
    [.ok (.str "rain"), .invalid (.mismatch "Must be int")], rfl, ?_⟩)
  simp [Outcome.defect?]

end Conformance
