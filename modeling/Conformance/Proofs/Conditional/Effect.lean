import Conformance.Proofs.Conditional.Selection

/-! # What rules do to the progress of a mapping

The mapping alone decides which keys rules claim and on which defect they break off. Which entries
they write and how they end may depend on the output as well, since post rules of cases look at it,
but only on what stands there under keys that the rules name.
-/

namespace Conformance

open Value (Entries)

def Agree (reach : Value → Prop) (o o' : Entries) : Prop :=
  ∀ k, reach k → Entries.get? k o = Entries.get? k o'

theorem Agree.insertAll {reach : Value → Prop} {o o' : Entries} (h : Agree reach o o')
    (items : List (Value × Value)) :
    Agree reach (Entries.insertAll items o) (Entries.insertAll items o') := by
  intro k hk
  rw [Entries.get?_insertAll, Entries.get?_insertAll, h k hk]

/-! ## Effects -/

/-- A way to end, with entries to write, for each output that is found. -/
structure Effect (α : Type) where
  broken : Except Defect Unit
  claims : List Value
  act : Entries → α × List (Value × Value)

namespace Effect

variable {α β : Type}

def on (e : Effect α) (p : Progress) : Except Defect (α × Progress) :=
  e.broken.map fun _ => ((e.act p.output).1, (p.claimAll e.claims).putAll (e.act p.output).2)

/-- As a step of a pass, whose failures are added to those before. -/
def onPass (e : Effect (List Failure)) (p : Pass) : Except Defect Pass :=
  (e.on p.progress).map fun r => ⟨r.2, p.failures ++ r.1⟩

/-- The effect looks at the output and writes to it within `reach`. -/
structure Local (e : Effect α) (reach : Value → Prop) : Prop where
  reads : ∀ o o', Agree reach o o' → e.act o = e.act o'
  writes : ∀ o, ∀ x ∈ (e.act o).2, reach x.1

def pure (a : α) : Effect α := ⟨.ok (), [], fun _ => (a, [])⟩

theorem local_pure (a : α) (reach : Value → Prop) : (pure a).Local reach where
  reads _ _ _ := rfl
  writes _ _ hx := absurd hx List.not_mem_nil

theorem on_pure (a : α) (p : Progress) : (pure a).on p = .ok (a, p) := by
  simp [on, pure, Except.map]

def claim (k : Value) (e : Effect α) : Effect α := { e with claims := k :: e.claims }

theorem on_claim (k : Value) (e : Effect α) (p : Progress) :
    (e.claim k).on p = e.on (p.claim k) := by
  rw [Progress.claim_eq_claimAll]
  simp only [on, claim, Progress.claimAll_claimAll]
  rfl

theorem Local.claim {e : Effect α} {reach : Value → Prop} (h : e.Local reach) (k : Value) :
    (e.claim k).Local reach := ⟨h.reads, h.writes⟩

/-- What has come out is taken further, where something may be written once more. -/
def next (e : Effect α) (g : α → Entries → β × List (Value × Value)) : Effect β where
  broken := e.broken
  claims := e.claims
  act o :=
    let first := e.act o
    let second := g first.1 (Entries.insertAll first.2 o)
    (second.1, first.2 ++ second.2)

theorem on_next (e : Effect α) (g : α → Entries → β × List (Value × Value)) (p : Progress) :
    (e.next g).on p =
      (e.on p).map fun r => ((g r.1 r.2.output).1, r.2.putAll (g r.1 r.2.output).2) := by
  simp only [on, next]
  cases e.broken with
  | error d => rfl
  | ok u =>
    simp only [Except.map, Progress.putAll_putAll]
    rfl

theorem Local.next {e : Effect α} {reach : Value → Prop}
    {g : α → Entries → β × List (Value × Value)} (h : e.Local reach)
    (reads : ∀ a o o', Agree reach o o' → g a o = g a o')
    (writes : ∀ a o, ∀ x ∈ (g a o).2, reach x.1) : (e.next g).Local reach where
  reads o o' ho := by
    simp only [Effect.next, h.reads o o' ho, reads _ _ _ (ho.insertAll (e.act o').2)]
  writes o x hx := by
    rcases List.mem_append.mp hx with hx | hx
    · exact h.writes o x hx
    · exact writes _ _ x hx

def seq (e f : Effect (List Failure)) : Effect (List Failure) where
  broken := e.broken.bind fun _ => f.broken
  claims := e.claims ++ f.claims
  act o :=
    let first := e.act o
    let second := f.act (Entries.insertAll first.2 o)
    (first.1 ++ second.1, first.2 ++ second.2)

theorem onPass_seq (e f : Effect (List Failure)) (p : Pass) :
    (e.seq f).onPass p = (e.onPass p).bind f.onPass := by
  cases he : e.broken with
  | error d => simp [onPass, on, seq, he, Except.map, Except.bind]
  | ok u =>
    cases hf : f.broken with
    | error d => simp [onPass, on, seq, he, hf, Except.map, Except.bind]
    | ok u =>
      have hoff : ∀ (q : Progress) (xs ys : List (Value × Value)),
          ((q.claimAll (e.claims ++ f.claims)).putAll (xs ++ ys)) =
            (((q.claimAll e.claims).putAll xs).claimAll f.claims).putAll ys := by
        intro q xs ys
        rw [Progress.claimAll_putAll, Progress.claimAll_claimAll, Progress.putAll_putAll]
      simp only [onPass, on, seq, he, hf, hoff, Except.map, Except.bind, List.append_assoc]
      rfl

theorem within_of_onPass {e : Effect (List Failure)} {m : Entries} {p q : Pass}
    (hp : p.progress.Within m) (h : e.onPass p = .ok q) : q.progress.Within m := by
  simp only [onPass, on] at h
  cases hb : e.broken with
  | error d =>
    rw [hb] at h
    cases h
  | ok u =>
    rw [hb] at h
    cases h
    exact (hp.claimAll _).putAll _

theorem Local.seq {e f : Effect (List Failure)} {reach : Value → Prop} (he : e.Local reach)
    (hf : f.Local reach) : (e.seq f).Local reach where
  reads o o' ho := by
    simp only [Effect.seq, he.reads o o' ho, hf.reads _ _ (ho.insertAll (e.act o').2)]
  writes o x hx := by
    rcases List.mem_append.mp hx with hx | hx
    · exact he.writes o x hx
    · exact hf.writes _ x hx

end Effect

end Conformance
