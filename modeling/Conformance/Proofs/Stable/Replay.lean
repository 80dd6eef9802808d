import Conformance.Proofs.Mapping.Pass
import Conformance.Proofs.Stable.Elements

/-! # Rules on what they have written

Rules that succeed on a mapping succeed on every mapping that holds what they have written, and then
write the same. Keys that were absent are present the second time, so other branches are taken.
-/

namespace Conformance

open Value (Entries)

/-! ## Passes without failures -/

theorem Outcome.settle_ok_iff {o : Outcome Value} {p after : Progress} {w : Value} :
    o.settle p = .ok (.ok w, after) ↔ o = .ok w ∧ after = p := by
  cases o <;> simp [Outcome.settle, eq_comm]

namespace KeyRule

variable {r : KeyRule} {m : Entries}

def Writes (r : KeyRule) (m : Entries) (p p' : Progress) : Prop :=
  ∃ v after, r.verdict? m p = some (.ok (.ok v, after)) ∧ p' = after.put r.key v

theorem step_of_writes {p : Pass} {p' : Progress} (h : r.Writes m p.progress p') :
    r.step m p = .ok ⟨p', p.failures⟩ := by
  obtain ⟨v, after, hv, rfl⟩ := h
  rw [step, hv]
  rfl

/-- Failures stay, so that a step after which there are none has found a value. -/
theorem writes_of_step {p q : Pass} (h : r.step m p = .ok q) (hq : q.failures = []) :
    p.failures = [] ∧ r.Writes m p.progress q.progress := by
  rw [step] at h
  rcases hv : r.verdict? m p.progress with _ | (d | ⟨e | w, after⟩) <;> rw [hv] at h <;> cases h
  · exact absurd hq (List.append_ne_nil_of_right_ne_nil _ (List.cons_ne_nil _ _))
  · exact absurd hq (List.append_ne_nil_of_right_ne_nil _ (List.cons_ne_nil _ _))
  · exact ⟨hq, w, after, hv, rfl⟩

end KeyRule

def WriteAll (keys : List KeyRule) (m : Entries) (p p' : Progress) : Prop :=
  runKeys keys m ⟨p, []⟩ = .ok ⟨p', []⟩

theorem failures_of_runKeys {keys : List KeyRule} {m : Entries} {p q : Pass}
    (h : runKeys keys m p = .ok q) (hq : q.failures = []) : p.failures = [] := by
  induction keys generalizing p with
  | nil =>
    cases h
    exact hq
  | cons r rest ih =>
    obtain ⟨a, ha, hrest⟩ := runKeys_cons_ok.mp h
    exact (KeyRule.writes_of_step ha (ih hrest)).1

theorem writeAll_cons {r : KeyRule} {rest : List KeyRule} {m : Entries} {p p' : Progress} :
    WriteAll (r :: rest) m p p' ↔ ∃ p₁, r.Writes m p p₁ ∧ WriteAll rest m p₁ p' := by
  rw [WriteAll, runKeys_cons_ok]
  constructor
  · rintro ⟨⟨p₁, failures⟩, hstep, hrest⟩
    have hnil : failures = [] := failures_of_runKeys hrest rfl
    subst hnil
    exact ⟨p₁, (KeyRule.writes_of_step hstep rfl).2, hrest⟩
  · rintro ⟨p₁, hwrites, hrest⟩
    exact ⟨⟨p₁, []⟩, KeyRule.step_of_writes hwrites, hrest⟩

theorem writeAll_singleton {r : KeyRule} {m : Entries} {p p' : Progress} :
    WriteAll [r] m p p' ↔ r.Writes m p p' := by
  rw [writeAll_cons]
  simp [WriteAll, runKeys]

theorem writeAll_append {xs ys : List KeyRule} {m : Entries} {p p' : Progress} :
    WriteAll (xs ++ ys) m p p' ↔ ∃ b, WriteAll xs m p b ∧ WriteAll ys m b p' := by
  induction xs generalizing p with
  | nil => simp [WriteAll, runKeys]
  | cons r rest ih =>
    simp only [List.cons_append, writeAll_cons, ih]
    constructor
    · rintro ⟨a, hr, b, hrest, hys⟩
      exact ⟨b, ⟨a, hr, hrest⟩, hys⟩
    · rintro ⟨b, ⟨a, hr, hrest⟩, hys⟩
      exact ⟨a, hr, b, hrest, hys⟩

theorem writeAll_append_append {xs ys zs : List KeyRule} {m : Entries} {p p' : Progress} :
    WriteAll (xs ++ ys ++ zs) m p p' ↔
      ∃ a b, WriteAll xs m p a ∧ WriteAll ys m a b ∧ WriteAll zs m b p' := by
  simp only [writeAll_append]
  constructor
  · rintro ⟨b, ⟨a, hxs, hys⟩, hzs⟩
    exact ⟨a, b, hxs, hys, hzs⟩
  · rintro ⟨a, b, hxs, hys, hzs⟩
    exact ⟨b, ⟨a, hxs, hys⟩, hzs⟩

/-! ## Writing again -/

namespace Progress

def enter (p : Progress) (items : List (Value × Value)) : Progress :=
  (p.claimAll (Entries.keys items)).putAll items

variable {p : Progress} {m : Entries}

theorem enter_nil (p : Progress) : p.enter [] = p := by
  simp [enter, Entries.keys]

theorem enter_enter (p : Progress) (xs ys : List (Value × Value)) :
    (p.enter xs).enter ys = p.enter (xs ++ ys) := by
  simp [enter, Entries.keys]

theorem output_enter (p : Progress) (items : List (Value × Value)) :
    (p.enter items).output = Entries.insertAll items p.output := rfl

theorem Within.enter (hp : p.Within m) (items : List (Value × Value)) : (p.enter items).Within m :=
  (hp.claimAll _).putAll _

/-- A key that is claimed before other entries and written after them. -/
theorem put_enter_claim (p : Progress) (k v : Value) (items : List (Value × Value)) :
    ((p.claim k).enter items).put k v = p.enter (items ++ [(k, v)]) := by
  have hcomm : (p.unhandled.filter (· ∉ [k])).filter (· ∉ Entries.keys items) =
      (p.unhandled.filter (· ∉ Entries.keys items)).filter (· ∉ [k]) := List.filter_comm _ _ _
  rw [← enter_enter, put_eq_putAll, claim_eq_claimAll]
  simp only [enter, claimAll, putAll, hcomm]
  rfl

end Progress

/-- Rules with the names `names` that end well have entered some entries. They end well again on a
mapping with these entries, when what has been written before is the same. -/
def Replays (names : List Value) (ends : Entries → Progress → Progress → Prop) : Prop :=
  ∀ ⦃m p p'⦄, p.Within m → ends m p p' → ∃ ws : List (Value × Value),
    p' = p.enter ws ∧ (Entries.keys ws).Nodup ∧ Entries.keys ws ⊆ names ∧
      ∀ ⦃out : Entries⦄ ⦃q : Progress⦄, out.Includes ws → q.output = p.output →
        ends out q (q.enter ws)

namespace Replays

variable {xs ys : List Value} {A B : Entries → Progress → Progress → Prop}

theorem of_iff (h : Replays xs A) (hsub : xs ⊆ ys) (hiff : ∀ m p p', A m p p' ↔ B m p p') :
    Replays ys B := by
  intro m p p' hp hends
  obtain ⟨ws, hp', hnodup, hkeys, hagain⟩ := h hp ((hiff m p p').mpr hends)
  exact ⟨ws, hp', hnodup, List.Subset.trans hkeys hsub,
    fun _ _ hout hq => (hiff _ _ _).mp (hagain hout hq)⟩

theorem comp (hA : Replays xs A) (hB : Replays ys B) (hdisjoint : xs.Disjoint ys) :
    Replays (xs ++ ys) fun m p p' => ∃ p₁, A m p p₁ ∧ B m p₁ p' := by
  rintro m p p' hp ⟨p₁, h₁, h₂⟩
  obtain ⟨ws₁, rfl, hnodup₁, hkeys₁, hagain₁⟩ := hA hp h₁
  obtain ⟨ws₂, rfl, hnodup₂, hkeys₂, hagain₂⟩ := hB (hp.enter ws₁) h₂
  have hkeys : Entries.keys (ws₁ ++ ws₂) = Entries.keys ws₁ ++ Entries.keys ws₂ := List.map_append
  refine ⟨ws₁ ++ ws₂, Progress.enter_enter _ _ _, ?_, ?_, ?_⟩
  · rw [hkeys]
    exact hnodup₁.append hnodup₂ fun _ h₁ h₂ => hdisjoint (hkeys₁ h₁) (hkeys₂ h₂)
  · rw [hkeys]
    exact List.append_subset.mpr ⟨List.Subset.trans hkeys₁ (List.subset_append_left _ _),
      List.Subset.trans hkeys₂ (List.subset_append_right _ _)⟩
  · intro out q hout hq
    obtain ⟨hout₁, hout₂⟩ := List.forall_mem_append.mp hout
    -- The second rules find the output of the first ones as it was.
    refine ⟨q.enter ws₁, hagain₁ hout₁ hq, ?_⟩
    rw [← Progress.enter_enter]
    refine hagain₂ hout₂ ?_
    rw [Progress.output_enter, Progress.output_enter, hq]

/-- What is only asked of the output holds again, as the output is the same. -/
theorem guard (hA : Replays xs A) (P : Entries → Prop) :
    Replays xs fun m p p' => A m p p' ∧ P p'.output := by
  rintro m p p' hp ⟨hends, hP⟩
  obtain ⟨ws, rfl, hnodup, hkeys, hagain⟩ := hA hp hends
  refine ⟨ws, rfl, hnodup, hkeys, fun out q hout hq => ⟨hagain hout hq, ?_⟩⟩
  rwa [Progress.output_enter, hq]

theorem nil : Replays [] fun _ p p' => p' = p := by
  rintro m p p' - rfl
  refine ⟨[], (Progress.enter_nil _).symm, List.nodup_nil, List.nil_subset _, fun _ q _ _ => ?_⟩
  exact Progress.enter_nil q

end Replays

end Conformance
