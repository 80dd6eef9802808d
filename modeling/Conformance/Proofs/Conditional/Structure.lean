import Conformance.Proofs.Conditional.Structural
import Mathlib.Data.Option.Basic

/-! # The structure of a mapping and its post rules

The structure of a mapping is what is left of its check without any post rules. A table fails where
its structure fails, and then its own post rules are not run. Post rules of a case are run as soon
as the case fits, whatever is still to come of the tables around it.
-/

namespace Conformance

open Value (Entries)

/-! ## Runs side by side -/

section Alike

variable {α β γ δ : Type} {R : α → β → Prop} {S : γ → δ → Prop}

inductive Alike (R : α → β → Prop) : Except Defect α → Except Defect β → Prop
  | error (d : Defect) : Alike R (.error d) (.error d)
  | ok {a b} : R a b → Alike R (.ok a) (.ok b)

theorem Alike.bind {x : Except Defect α} {y : Except Defect β} {f : α → Except Defect γ}
    {g : β → Except Defect δ} (h : Alike R x y) (hf : ∀ {a b}, R a b → Alike S (f a) (g b)) :
    Alike S (x.bind f) (y.bind g) := by
  cases h with
  | error d => exact .error d
  | ok hab => exact hf hab

theorem Alike.map {x : Except Defect α} {y : Except Defect β} {f : α → γ} {g : β → δ}
    (h : Alike R x y) (hf : ∀ {a b}, R a b → S (f a) (g b)) : Alike S (x.map f) (y.map g) := by
  cases h with
  | error d => exact .error d
  | ok hab => exact .ok (hf hab)

theorem Alike.exists_ok_left {x : Except Defect α} {b : β} (h : Alike R x (.ok b)) :
    ∃ a, x = .ok a ∧ R a b := by
  cases h with
  | ok hab => exact ⟨_, rfl, hab⟩

theorem Alike.exists_ok_right {a : α} {y : Except Defect β} (h : Alike R (.ok a) y) :
    ∃ b, y = .ok b ∧ R a b := by
  cases h with
  | ok hab => exact ⟨_, rfl, hab⟩

end Alike

/-- Of two runs the first fails where the second one does. If they are `linked` they leave the same
keys over, and if post rules are `silent` they end alike. -/
structure Covers {α : Type} (linked silent : Prop) (bad : α → Prop) (r r' : α × Progress) :
    Prop where
  unhandled : linked → r.2.unhandled = r'.2.unhandled
  failed : bad r'.1 → bad r.1
  same : silent → r.1 = r'.1

def Pass.Covers (linked silent : Prop) (p q : Pass) : Prop :=
  Conformance.Covers linked silent (· ≠ []) (p.failures, p.progress) (q.failures, q.progress)

def VerdictCovers (linked silent : Prop) : Verdict → Verdict → Prop :=
  Alike (Covers linked silent fun v => v.isOk = false)

def RunCovers (linked silent : Prop) : Run → Run → Prop :=
  Alike (Covers linked silent fun e? => e?.isNone = false)

section Runs

variable {m : Entries} {linked silent : Prop} {p q : Pass}

theorem Progress.unhandled_claimPresent {a b : Progress}
    (h : linked → a.unhandled = b.unhandled) (key : Value) :
    linked → (a.claimPresent m key).unhandled = (b.claimPresent m key).unhandled := by
  intro hlinked
  unfold claimPresent
  cases Entries.get? key m with
  | some v => simp only [claim, h hlinked]
  | none => exact h hlinked

namespace Pass.Covers

theorem fail (h : p.Covers linked silent q) (f : Failure) :
    (p.fail f).Covers linked silent (q.fail f) where
  unhandled := h.unhandled
  failed _ := List.append_ne_nil_of_right_ne_nil _ (List.cons_ne_nil _ _)
  same hs := congrArg (· ++ [f]) (h.same hs)

theorem record {a b : Except Invalid Value × Progress} (h : p.Covers linked silent q)
    (hab : Conformance.Covers linked silent (fun v => v.isOk = false) a b) (key : Value)
    (context : String) :
    (Pass.record p.failures key context a).Covers linked silent
      (Pass.record q.failures key context b) := by
  obtain ⟨v, after⟩ := a
  obtain ⟨v', after'⟩ := b
  have hne : ∀ (fs : List Failure) (f : Failure), fs ++ [f] ≠ [] := fun _ _ =>
    List.append_ne_nil_of_right_ne_nil _ (List.cons_ne_nil _ _)
  cases v with
  | ok w =>
    cases v' with
    | ok w' => exact ⟨hab.unhandled, h.failed, h.same⟩
    | error e' => exact absurd (hab.failed rfl) (by simp [Except.isOk, Except.toBool])
  | error e =>
    cases v' with
    | ok w' => exact ⟨hab.unhandled, fun _ => hne _ _, fun hs => absurd (hab.same hs) (by simp)⟩
    | error e' =>
      refine ⟨hab.unhandled, fun _ => hne _ _, fun hs => ?_⟩
      obtain rfl : e = e' := Except.error.inj (hab.same hs)
      exact congrArg (· ++ [_]) (h.same hs)

end Pass.Covers

theorem step_alike {key : Value} {slot slot' : Slot} (h : p.Covers linked silent q)
    (hverdict : Option.Rel (VerdictCovers linked silent)
      ((⟨key, slot⟩ : KeyRule).verdict? m p.progress)
      ((⟨key, slot'⟩ : KeyRule).verdict? m q.progress)) :
    Alike (Pass.Covers linked silent) ((⟨key, slot⟩ : KeyRule).step m p)
      ((⟨key, slot'⟩ : KeyRule).step m q) := by
  rw [KeyRule.step, KeyRule.step]
  generalize (⟨key, slot⟩ : KeyRule).verdict? m p.progress = v at hverdict ⊢
  generalize (⟨key, slot'⟩ : KeyRule).verdict? m q.progress = v' at hverdict ⊢
  cases hverdict with
  | none => exact .ok (h.fail _)
  | some hv => exact hv.map fun hab => h.record hab key _

theorem verdict_alike_type {key : Value} {b : Base} {a a' : Progress}
    (h : linked → a.unhandled = a'.unhandled) :
    Option.Rel (VerdictCovers linked silent) ((⟨key, .type b⟩ : KeyRule).verdict? m a)
      ((⟨key, .type b⟩ : KeyRule).verdict? m a') := by
  have hclaimed := Progress.unhandled_claimPresent (m := m) h key
  change Option.Rel _ ((KeyRule.typed (key, b)).verdict? m a)
    ((KeyRule.typed (key, b)).verdict? m a')
  rw [KeyRule.verdict_type, KeyRule.verdict_type]
  cases b.provided? (Entries.get? key m) with
  | none => exact .none
  | some o =>
    cases o with
    | defect d => exact .some (.error d)
    | _ => exact .some (.ok ⟨hclaimed, id, fun _ => rfl⟩)

theorem verdict_alike_unselected {key : Value} {c : Conditional} {a a' : Progress}
    (h : linked → a.unhandled = a'.unhandled) (hnone : c.selected? (Entries.get? key m) = none) :
    Option.Rel (VerdictCovers linked silent) ((⟨key, .conditional c⟩ : KeyRule).verdict? m a)
      ((⟨key, .conditional c.structural⟩ : KeyRule).verdict? m a') := by
  have hclaimed := Progress.unhandled_claimPresent (m := m) h key
  have hnone' : c.structural.selected? (Entries.get? key m) = none := by
    rw [c.selected_structural, hnone]
    rfl
  rw [KeyRule.verdict_unselected hnone, KeyRule.verdict_unselected hnone', c.unselected_structural]
  cases c.unselected? (Entries.get? key m) with
  | none => exact .none
  | some w => exact .some (.ok ⟨hclaimed, id, fun _ => rfl⟩)

theorem verdict_alike_selected {key : Value} {c : Conditional} {x : Case} {a a' : Progress}
    (hselected : c.selected? (Entries.get? key m) = some x)
    (hrun : RunCovers linked silent (x.mapping.run true m (a.claimPresent m key))
      (x.mapping.structural.run true m (a'.claimPresent m key))) :
    Option.Rel (VerdictCovers linked silent) ((⟨key, .conditional c⟩ : KeyRule).verdict? m a)
      ((⟨key, .conditional c.structural⟩ : KeyRule).verdict? m a') := by
  have hselected' : c.structural.selected? (Entries.get? key m) = some x.structural := by
    rw [c.selected_structural, hselected]
    rfl
  rw [KeyRule.verdict_selected hselected, KeyRule.verdict_selected hselected',
    c.concluded_structural]
  refine .some (hrun.map fun hab => ⟨hab.unhandled, fun hbad => ?_, fun hs => ?_⟩)
  · rw [c.isOk_concluded] at hbad ⊢
    exact hab.failed hbad
  · rw [hab.same hs]

/-! ### Tables -/

/-- On its own the structure of a table is met, where other keys may be left over. -/
def Mapping.Fits (t : Mapping) (m : Entries) : Prop :=
  ∃ p, t.structural.run true m (.start m) = .ok (none, p)

/-- Whatever progress it begins with, the structure of a table is not met. -/
def Mapping.NeverMet (t : Mapping) (m : Entries) : Prop :=
  ∀ p p', t.structural.run true m p ≠ .ok (none, p')

theorem finish_covers {post : List Post} (h : p.Covers linked silent q)
    (hpost : silent → q.failures = [] → post = []) :
    Covers linked silent (fun e? => e?.isNone = false) (p.finish post) (q.finish []) := by
  obtain ⟨a, fs⟩ := p
  obtain ⟨b, gs⟩ := q
  cases fs with
  | cons f rest =>
    cases gs with
    | cons g rest' =>
      refine ⟨h.unhandled, fun _ => rfl, fun hs => ?_⟩
      have hsame : f :: rest = g :: rest' := h.same hs
      cases hsame
      rfl
    | nil => exact ⟨h.unhandled, fun _ => rfl, fun hs => absurd (h.same hs) (List.cons_ne_nil _ _)⟩
  | nil =>
    -- Only here are post rules run.
    cases gs with
    | cons g rest => exact absurd rfl (h.failed (List.cons_ne_nil _ _))
    | nil =>
      refine ⟨h.unhandled, fun hbad => ?_, fun hs => ?_⟩
      · cases hbad
      · obtain rfl : post = [] := hpost hs rfl
        rfl

theorem run_alike {u : Mapping} (hpatterns : u.patterns = [])
    (hsilent : silent → u.post = [] ∨ u.NeverMet m)
    (hkeys : ∀ {p q : Pass}, p.Covers linked silent q →
      Alike (Pass.Covers linked silent) (runKeys u.keys m p) (runKeys (structuralKeys u.keys) m q))
    {a a' : Progress} (h : linked → a.unhandled = a'.unhandled) :
    RunCovers linked silent (u.run true m a) (u.structural.run true m a') := by
  have hstart : (⟨a, []⟩ : Pass).Covers linked silent ⟨a', []⟩ := ⟨h, id, fun _ => rfl⟩
  have hpass := hkeys hstart
  have hrun := Mapping.run_of_patternless (u.patterns_structural.trans hpatterns) m a'
  rw [u.keys_structural, u.post_structural] at hrun
  rw [Mapping.run_of_patternless hpatterns, hrun]
  generalize runKeys u.keys m ⟨a, []⟩ = x at hpass ⊢
  generalize runKeys (structuralKeys u.keys) m ⟨a', []⟩ = y at hpass hrun ⊢
  cases hpass with
  | error d => exact .error d
  | ok hcovers =>
    refine .ok (finish_covers hcovers fun hs hnone => (hsilent hs).resolve_right fun hfails => ?_)
    exact hfails a' _ (hrun.trans (congrArg Except.ok
      ((Pass.finish_eq_none_iff (List.forall_mem_nil _)).mpr ⟨hnone, rfl, rfl⟩)))

/-! ### All cases that are selected -/

/-- No case that is selected has post rules, unless its structure is not met. -/
def Mapping.Silent (t : Mapping) (m : Entries) : Prop :=
  ∀ x, t.Selects m x → x.mapping.post = [] ∨ ¬ x.mapping.Fits m

def Mapping.Muted (t : Mapping) (m : Entries) : Prop :=
  ∀ x, t.Selects m x → x.mapping.post = [] ∨ x.mapping.NeverMet m

section Selected

variable {t : Mapping}

-- The induction is on the syntax of the keys. That their table is applied to `m` is carried along,
-- since it is only about cases that are selected that `hsilent` says anything.
mutual

theorem runKeys_alike (hsilent : silent → t.Muted m) :
    (keys : List KeyRule) → Patternless keys → ∀ u, t.Applied m u → keys ⊆ u.keys →
      ∀ {p q : Pass}, p.Covers linked silent q →
        Alike (Pass.Covers linked silent) (runKeys keys m p) (runKeys (structuralKeys keys) m q)
  | [], _, _, _, _, _, _, h => .ok h
  | ⟨key, slot⟩ :: rest, hpatterns, u, hu, hsub, p, q, h => by
    obtain ⟨hhead, hrest⟩ := List.cons_subset.mp hsub
    obtain ⟨hslot, hpatterns⟩ := List.forall_mem_cons.mp hpatterns
    rw [structuralKeys, runKeys_cons, runKeys_cons]
    refine (step_alike h (slot_alike hsilent slot key hslot u hu hhead h.unhandled)).bind ?_
    exact runKeys_alike hsilent rest hpatterns u hu hrest

theorem slot_alike (hsilent : silent → t.Muted m) :
    (slot : Slot) → ∀ key, (∀ u, KeyRule.Leads ⟨key, slot⟩ u → u.patterns = []) →
      ∀ u, t.Applied m u → ⟨key, slot⟩ ∈ u.keys →
      ∀ {a a' : Progress}, (linked → a.unhandled = a'.unhandled) →
        Option.Rel (VerdictCovers linked silent) ((⟨key, slot⟩ : KeyRule).verdict? m a)
          ((⟨key, slot.structural⟩ : KeyRule).verdict? m a')
  | .type _, _, _, _, _, _, _, _, h => verdict_alike_type h
  | .conditional ⟨cases, optional, default, applyDefaultSpec⟩, key, hpatterns, u, hu, hkey, _, _,
      h => by
    cases hx : Conditional.selected? ⟨cases, optional, default, applyDefaultSpec⟩
        (Entries.get? key m) with
    | none => exact verdict_alike_unselected h hx
    | some x =>
      refine verdict_alike_selected hx ?_
      exact cases_alike hsilent cases (KeyRule.forall_leads_iff.mp hpatterns) x
        (Conditional.mem_of_selected? hx) ⟨u, hu, key, _, hkey, hx⟩
        (Progress.unhandled_claimPresent h key)

theorem cases_alike (hsilent : silent → t.Muted m) :
    (cases : List Case) → (∀ x ∈ cases, x.mapping.patterns = [] ∧ Patternless x.mapping.keys) →
      ∀ x ∈ cases, t.Selects m x →
      ∀ {a a' : Progress}, (linked → a.unhandled = a'.unhandled) →
        RunCovers linked silent (x.mapping.run true m a) (x.mapping.structural.run true m a')
  | [], _ => List.forall_mem_nil _
  | ⟨_, _, ⟨keys, patterns, post, name, ok⟩⟩ :: rest, hcases => by
    obtain ⟨⟨hpatterns, hkeys⟩, hrest⟩ := List.forall_mem_cons.mp hcases
    refine List.forall_mem_cons.mpr ⟨fun hselects => ?_, cases_alike hsilent rest hrest⟩
    exact run_alike hpatterns (fun hs => hsilent hs _ hselects)
      (runKeys_alike hsilent keys hkeys _ hselects.applied (List.Subset.refl _))

end

theorem claimKeys_alike {take : Value → Value → Outcome (Option (Value × Value))}
    (h : p.Covers linked silent q) (keys : List Value) :
    Alike (Pass.Covers linked silent) (claimKeys take m keys p) (claimKeys take m keys q) := by
  induction keys generalizing p q with
  | nil => exact .ok h
  | cons key rest ih =>
    have hclaim : linked → (p.progress.claim key).unhandled = (q.progress.claim key).unhandled :=
      fun hlinked => congrArg (List.filter _) (h.unhandled hlinked)
    simp only [claimKeys]
    cases Entries.get? key m with
    | none => exact ih h
    | some v =>
      dsimp only
      rcases take key v with (_ | ⟨key', v'⟩) | e | d
      · exact ih h
      · exact ih ⟨hclaim, h.failed, h.same⟩
      · have hclaimed : (⟨p.progress.claim key, p.failures⟩ : Pass).Covers linked silent
            ⟨q.progress.claim key, q.failures⟩ := ⟨hclaim, h.failed, h.same⟩
        exact ih (hclaimed.fail _)
      · exact .error d

theorem Pass.Covers.sealed (h : p.Covers True silent q) (unhandledOk : Bool) (keys : List KeyRule)
    (patterns : List PatternRule) :
    (p.sealed unhandledOk keys patterns).Covers True silent
      (q.sealed unhandledOk (structuralKeys keys) patterns) := by
  have hunhandled : p.progress.unhandled = q.progress.unhandled := h.unhandled trivial
  have hleft : unhandledFailure p.progress.unhandled keys patterns =
      unhandledFailure q.progress.unhandled (structuralKeys keys) patterns := by
    rw [unhandledFailure, unhandledFailure, map_structuralKeys, hunhandled]
  rw [Pass.sealed, Pass.sealed, hleft, hunhandled]
  split
  · exact h.fail _
  · exact h

theorem pass_alike (hsilent : silent → t.Muted m) (hpatterns : Patternless t.keys)
    (unhandledOk : Bool) (a : Progress) :
    Alike (Pass.Covers True silent) (t.pass unhandledOk m a)
      (t.structural.pass unhandledOk m a) := by
  have hkeys : ∀ {p q : Pass}, p.Covers True silent q →
      Alike (Pass.Covers True silent) (runKeys t.keys m p) (runKeys (structuralKeys t.keys) m q) :=
    runKeys_alike hsilent t.keys hpatterns t .outer (List.Subset.refl _)
  obtain ⟨keys, patterns, post, name, ok⟩ := t
  refine (hkeys ⟨fun _ => rfl, id, fun _ => rfl⟩).bind fun {b c} hbc => ?_
  have hunhandled : b.progress.unhandled = c.progress.unhandled := hbc.unhandled trivial
  rw [hunhandled]
  exact (claimKeys_alike hbc _).map fun hpass => hpass.sealed unhandledOk keys patterns

/-- The progress with which a table begins has no part in whether its structure is met. -/
theorem Mapping.neverMet_of_not_fits {u : Mapping} (hpatterns : u.patterns = [])
    (hkeys : Patternless u.keys) (h : ¬ u.Fits m) : u.NeverMet m := by
  intro a p' hend
  have hkeys' : Patternless u.structural.keys := by
    rwa [u.keys_structural, ← patternless_iff, patternless_structuralKeys, patternless_iff]
  -- Nothing links the two runs, so neither what is left over nor the output has to agree.
  have hruns : RunCovers False False (u.structural.run true m a)
      (u.structural.structural.run true m (.start m)) :=
    run_alike (u.patterns_structural.trans hpatterns) False.elim
      (runKeys_alike False.elim _ hkeys' _ .outer (List.Subset.refl _)) False.elim
  rw [structural_structural, hend] at hruns
  obtain ⟨⟨e?, p⟩, hstart, hcovers⟩ := hruns.exists_ok_right
  cases e? with
  | none => exact h ⟨p, hstart⟩
  | some e => cases hcovers.failed rfl

theorem Mapping.Silent.muted (h : t.Silent m) (hkeys : Patternless t.keys) : t.Muted m := by
  intro x hx
  obtain ⟨hpatterns, hcase⟩ := hx.patternless hkeys
  exact (h x hx).imp_right (Mapping.neverMet_of_not_fits hpatterns hcase)

end Selected

end Runs

/-! ## The check -/

section Check

variable {settings : Settings} {t : Mapping} {m : Entries} {v : Value} {e : Invalid}

/-- Post rules of a table are not run when its pass has failures. -/
theorem check_of_failures {p : Pass} {f : Failure} {rest : List Failure}
    (given : settings.given v = .map m) (hpass : t.pass t.unhandledOk m (.start m) = .ok p)
    (hfailures : p.failures = f :: rest) :
    (⟨settings, .mapping t⟩ : Spec).check v =
      .invalid (.aggregate "Does not conform with dict schema" f rest) := by
  refine Spec.check_of_rule_invalid ?_
  rw [given]
  change (t.run t.unhandledOk m (.start m)).close = _
  rw [Mapping.run_eq, hpass, Except.map, Pass.finish, hfailures]
  rfl

/-- A table without post rules refuses a mapping for the failures of its pass. -/
theorem pass_of_invalid (hpost : t.post = [])
    (h : (Rule.mapping t).check (.map m) = .invalid e) :
    ∃ p f rest, t.pass t.unhandledOk m (.start m) = .ok p ∧ p.failures = f :: rest ∧
      e = .aggregate "Does not conform with dict schema" f rest := by
  change (t.run t.unhandledOk m (.start m)).close = _ at h
  rw [Mapping.run_eq, hpost] at h
  rcases hp : t.pass t.unhandledOk m (.start m) with d | ⟨progress, _ | ⟨f, rest⟩⟩ <;>
    rw [hp] at h <;> cases h
  exact ⟨⟨progress, f :: rest⟩, f, rest, rfl, rfl, rfl⟩

/-- A mapping whose structure is not met is refused, and post rules of the schema have no part in
how. Nor have those of cases, unless a case with post rules is met by itself. -/
theorem check_structural (given : settings.given v = .map m) (patternless : Patternless t.keys)
    (failed : (Rule.mapping t.structural).check (.map m) = .invalid e) :
    ∃ e', (⟨settings, .mapping t⟩ : Spec).check v = .invalid e' ∧
      (⟨settings, .mapping { t with post := [] }⟩ : Spec).check v = .invalid e' ∧
      (t.Silent m → e' = e) := by
  obtain ⟨q, g, rest', hq, hfailures, rfl⟩ := pass_of_invalid t.post_structural failed
  rw [t.unhandledOk_structural] at hq
  have hpass : Alike (Pass.Covers True (t.Silent m)) (t.pass t.unhandledOk m (.start m))
      (t.structural.pass t.unhandledOk m (.start m)) :=
    pass_alike (fun h => h.muted patternless) patternless t.unhandledOk (.start m)
  rw [hq] at hpass
  obtain ⟨p, hp, hcovers⟩ := hpass.exists_ok_left
  have hne : p.failures ≠ [] := hcovers.failed (by simp [hfailures])
  obtain ⟨f, rest, hf⟩ := List.exists_cons_of_ne_nil hne
  refine ⟨_, check_of_failures given hp hf, check_of_failures given hp hf, fun hsilent => ?_⟩
  have hsame : f :: rest = g :: rest' := by
    rw [← hf, ← hfailures]
    exact hcovers.same hsilent
  cases hsame
  rfl

end Check

namespace Ensemble

def nonempty (key : Value) : Post :=
  ⟨key, [], .test ⟨⟨[0]⟩, fun vs => vs.all Value.isTruthy⟩ "is empty"⟩

def group : Case :=
  ⟨.str "group", .required,
    ⟨[⟨.str "size", .type (.atom (.kind .int))⟩], [], [nonempty (.str "size")], "group", false⟩⟩

def kind : Conditional := ⟨[group], false, .null, false⟩

/-- Ensembles have a name, and a size if they are groups. -/
def table : Mapping :=
  ⟨[⟨.str "kind", .conditional kind⟩, ⟨.str "name", .type (.atom (.kind .str))⟩], [],
    [nonempty (.str "name")], "ensemble", false⟩

def spec : Spec := ⟨.required, .mapping table⟩

def unnamed (size : Value) : Entries := [(.str "kind", .str "group"), (.str "size", size)]

theorem eq_group_of_selects {m : Entries} {x : Case} (h : table.Selects m x) : x = group := by
  have hcase : ∀ u, u = table ∨ u = group.mapping → ∀ {key c x v?},
      ⟨key, .conditional c⟩ ∈ u.keys → c.selected? v? = some x → x = group := by
    rintro _ (rfl | rfl) key c x v? hkey hx
    · rcases List.mem_pair.mp hkey with hkind | hname
      · cases hkind
        exact List.mem_singleton.mp (Conditional.mem_of_selected? hx)
      · cases hname
    · cases List.mem_singleton.mp hkey
  have happlied : ∀ u, table.Applied m u → u = table ∨ u = group.mapping := by
    intro u hu
    induction hu with
    | outer => exact .inl rfl
    | case _ hkey hx ih => exact .inr (congrArg Case.mapping (hcase _ ih hkey hx))
  obtain ⟨u, hu, key, c, hkey, hx⟩ := h
  exact hcase u (happlied u hu) hkey hx

end Ensemble

theorem check_structural_unnamed :
    Ensemble.spec.check (.map (Ensemble.unnamed (.str "many"))) =
      (⟨.required, .mapping Ensemble.table.structural⟩ : Spec).check
        (.map (Ensemble.unnamed (.str "many"))) := by
  obtain ⟨e, he⟩ : ∃ e, (Rule.mapping Ensemble.table.structural).check
      (.map (Ensemble.unnamed (.str "many"))) = .invalid e := ⟨_, rfl⟩
  have patternless : Patternless Ensemble.table.keys := by decide
  have silent : Ensemble.table.Silent (Ensemble.unnamed (.str "many")) := by
    intro x hx
    obtain rfl := Ensemble.eq_group_of_selects hx
    exact .inr fun ⟨p, hp⟩ => by cases hp
  have given : Settings.required.given (.map (Ensemble.unnamed (.str "many"))) =
      .map (Ensemble.unnamed (.str "many")) := rfl
  obtain ⟨e', hcheck, -, hsame⟩ := check_structural given patternless he
  rw [hsame silent] at hcheck
  exact hcheck.trans (Spec.check_of_rule_invalid he).symm

/-- The post rules of a case that is met by itself are run where the table around it is not met. -/
theorem check_structural_reported :
    (Rule.mapping Ensemble.table.structural).check (.map (Ensemble.unnamed (.int 0))) =
        .invalid (.aggregate "Does not conform with dict schema"
          (.leaf (some (.key (.str "name")))
            ("Missing required mapping key " ++ (Value.str "name").render)) []) ∧
      Ensemble.spec.check (.map (Ensemble.unnamed (.int 0))) =
        .invalid (.aggregate "Does not conform with dict schema"
          (.caused (some (.key (.str "kind")))
            ("Invalid value for key " ++ (Value.str "kind").render)
            (inCase (.str "group")
              (.aggregate "Post processing has failed" (.leaf none "is empty") [])))
          [.leaf (some (.key (.str "name")))
            ("Missing required mapping key " ++ (Value.str "name").render)]) :=
  ⟨rfl, rfl⟩

end Conformance
