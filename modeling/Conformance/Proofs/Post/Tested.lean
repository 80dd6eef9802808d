import Conformance.Proofs.Stable.Mapping

/-! # Tests that have been passed

A test is asked about the mapping that the rules before it have left, and later rules may change
that mapping. What has been tested still holds in the end if no later update gives a new value to a
key that the test refers to.
-/

namespace Conformance

open Value (Entries)

namespace Post

variable {p : Post} {m m' : Entries} {vs : List Value}

/-- No update after a test gives a new value to a key that the test refers to. -/
def Undisturbed (post : List Post) : Prop :=
  post.Pairwise fun test later => test.IsTest → ∀ k ∈ test.refKeys, ¬ later.Rewrites k

def HoldsOf (p : Post) (m : Entries) : Prop :=
  ∀ holds message, p.action = .test holds message → ∃ vs, p.Finds m vs ∧ holds.run vs = true

theorem IsTest.not_rewrites (h : p.IsTest) (k : Value) : ¬ p.Rewrites k := by
  obtain ⟨holds, message, htest⟩ := h
  rintro ⟨-, compute, gate, haction⟩
  rw [htest] at haction
  cases haction

theorem Finds.congr (h : p.Finds m vs)
    (same : ∀ k ∈ p.refKeys, Entries.get? k m' = Entries.get? k m) : p.Finds m' vs :=
  Result.forall₂_imp_of_mem h fun k hk _ hv => (same k hk).trans hv

theorem holdsOf_of_apply (h : p.apply m = .ok m') : p.HoldsOf m := by
  intro holds message htest
  obtain ⟨vs, hvs, -⟩ := apply_ok_cases h
  refine ⟨vs, hvs, ?_⟩
  rw [hvs.apply_test htest] at h
  by_contra hfails
  rw [if_neg hfails] at h
  cases h

/-- If no rule fails, every test holds of what all rules together leave. -/
theorem holdsOf_applyAll {post : List Post} (undisturbed : Undisturbed post)
    (h : (applyAll post m).1 = []) : ∀ p ∈ post, p.HoldsOf (applyAll post m).2 := by
  induction post generalizing m with
  | nil => exact List.forall_mem_nil _
  | cons p rest ih =>
    obtain ⟨hlater, hrest⟩ := List.pairwise_cons.mp undisturbed
    cases ha : p.apply m with
    | error text => simp [applyAll, ha] at h
    | ok m' =>
      simp only [applyAll, ha] at h ⊢
      refine List.forall_mem_cons.mpr ⟨fun holds message htest => ?_, ih hrest h⟩
      have hp : p.IsTest := ⟨holds, message, htest⟩
      obtain ⟨vs, hvs, hholds⟩ := holdsOf_of_apply ha holds message htest
      refine ⟨vs, hvs.congr fun k hk => ?_, hholds⟩
      -- The value that has been tested is not changed by the test itself, nor by a later rule.
      have hself : Entries.get? k m' = Entries.get? k m := get?_of_apply (hp.not_rewrites k) ha
      exact (get?_applyAll (fun q hq => hlater q hq hp k hk) m').trans hself

end Post

/-- What a mapping specification gives meets its tests, if no update comes after a test that refers
to the key that is updated. This holds for the default as for any other value. -/
theorem check_tested {settings : Settings} {t : Mapping} {v out : Value}
    (undisturbed : Post.Undisturbed t.post)
    (accepted : (⟨settings, .mapping t⟩ : Spec).check v = .ok out) :
    ∃ o, out = .map o ∧ ∀ p ∈ t.post, ∀ holds message, p.action = .test holds message →
      ∃ vs, List.Forall₂ (fun k w => out.get? k = some w) p.refKeys vs ∧ holds.run vs = true := by
  obtain ⟨w, hrule, -, hcanonical⟩ := Spec.check_ok_iff.mp accepted
  obtain rfl : w = out := Outcome.ok.inj hcanonical
  obtain ⟨m, q, -, hrun, rfl⟩ := Rule.mapping_check_ok_iff.mp hrule
  obtain ⟨a, b, -, -, -, hfinish⟩ := Mapping.run_accepts_iff.mp hrun
  obtain ⟨-, hnone, rfl⟩ := Pass.finish_none_iff.mp hfinish
  exact ⟨_, rfl, Post.holdsOf_applyAll undisturbed hnone⟩

namespace Window

def larger : List Value → Value
  | [.int a, .int b] => .int (if a < b then b else a)
  | _ => .null

def ordered : List Value → Bool
  | [.int a, .int b] => a ≤ b
  | _ => false

def difference : List Value → Value
  | [_, .int a, .int b] => .int (b - a)
  | _ => .null

/-- The upper end is raised to the lower one, and the width is worked out from both. -/
def rules : List Post :=
  [⟨.str "high", [.str "low"], .update ⟨⟨[0]⟩, larger⟩ none⟩,
    ⟨.str "low", [.str "high"], .test ⟨⟨[1]⟩, ordered⟩ "low exceeds high"⟩,
    ⟨.str "width", [.str "low", .str "high"], .update ⟨⟨[2]⟩, difference⟩ none⟩]

def number : Base := .atom (.kind .int)

def spec : Spec :=
  ⟨.required, .mapping ⟨[⟨.str "low", .type number⟩, ⟨.str "high", .type number⟩,
    ⟨.str "width", .type (.spec ⟨⟨true, .value (.int 0), .empty, []⟩, .scalar (.kind .int) none⟩)⟩],
    [], rules, "window", false⟩⟩

def given : Entries := [(.str "high", .int 2), (.str "low", .int 5)]

end Window

theorem check_tested_window :
    ∃ out, Window.spec.check (.map Window.given) = .ok out ∧
      ∃ vs, List.Forall₂ (fun k w => out.get? k = some w) [.str "low", .str "high"] vs ∧
        Window.ordered vs = true := by
  have undisturbed : Post.Undisturbed Window.rules := by
    simp [Post.Undisturbed, Window.rules, Post.IsTest, Post.Rewrites, Post.refKeys]
  obtain ⟨out, hout⟩ : ∃ out, Window.spec.check (.map Window.given) = .ok out := ⟨_, rfl⟩
  obtain ⟨o, rfl, htests⟩ := check_tested undisturbed hout
  exact ⟨_, hout, htests Window.rules[1] (List.getElem_mem _) _ _ rfl⟩

end Conformance
