import Conformance.Proofs.Invalid.Leaves
import Conformance.Proofs.Mapping.Failures
import Conformance.Proofs.Spec.Buildable
import Conformance.Proofs.Stable.Elements

/-! # Locations lead through the checked value

Every rule checks parts of the value that it is given and reports what it finds there under the
place of the part. The only other value that is ever checked is a default, of which nothing can be
reported, and the only place without a part is that of a missing key.
-/

namespace Conformance

open Value (Entries)

/-! ## Parts of a value -/

def Value.part? (v : Value) : Location → Option Value
  | .index i => v.elements?.bind (·[i]?)
  | .key k => v.entries?.bind (Entries.get? k)

def Value.follow? : Value → List Location → Option Value
  | v, [] => some v
  | v, l :: rest => (v.part? l).bind fun w => w.follow? rest

/-- A trail leads from part to part, where the last step may be to a key that is reported as
missing. -/
inductive Locates (message : String) : Value → List Location → Prop
  | here {v} : Locates message v []
  | missing {m k} : Entries.get? k m = none →
      message = "Missing required mapping key " ++ k.render → Locates message (.map m) [.key k]
  | part {v l w trail} : v.part? l = some w → Locates message w trail →
      Locates message v (l :: trail)

theorem Locates.reaches {message : String} {v : Value} {trail : List Location}
    (h : Locates message v trail) :
    trail = [] ∨ ∃ front last w, trail = front ++ [last] ∧ v.follow? front = some w ∧
      ((∃ part, w.part? last = some part) ∨
        ∃ m k, w = .map m ∧ last = .key k ∧ Entries.get? k m = none ∧
          message = "Missing required mapping key " ++ k.render) := by
  induction h with
  | here => exact .inl rfl
  | missing hk hmessage => exact .inr ⟨[], _, _, rfl, rfl, .inr ⟨_, _, rfl, rfl, hk, hmessage⟩⟩
  | @part v l w trail hw _ ih =>
    rcases ih with rfl | ⟨front, last, u, rfl, hu, hlast⟩
    · exact .inr ⟨[], l, v, rfl, rfl, .inl ⟨w, hw⟩⟩
    · refine .inr ⟨l :: front, last, u, rfl, ?_, hlast⟩
      rw [Value.follow?, hw]
      exact hu

/-! ## Errors about a value -/

/-- Every leaf of an error is located in the value. -/
def Invalid.Real (e : Invalid) (v : Value) : Prop :=
  ∀ x, e.Holds x → x.failure.cause = none → Locates x.failure.message v x.trail

inductive Failure.Real (v : Value) : Failure → Prop
  | here (message) : Real v (.leaf none message)
  | missing {m k} : v = .map m → Entries.get? k m = none →
      Real v (.leaf (some (.key k)) ("Missing required mapping key " ++ k.render))
  | part {l w context cause} : v.part? l = some w → cause.Real w →
      Real v (.caused (some l) context cause)

theorem Invalid.real_of_failures {e : Invalid} {v : Value} (h : ∀ f ∈ e.failures, f.Real v) :
    e.Real v := by
  intro x hx hleaf
  cases hx with
  | @direct _ i f hf =>
    cases h f (List.mem_of_getElem? hf) with
    | here message => exact .here
    | missing hv hk =>
      subst hv
      exact .missing hk rfl
    | part => cases hleaf
  | @deeper _ i f cause y hf hcause hy =>
    cases h f (List.mem_of_getElem? hf) with
    | here message => cases hcause
    | missing => cases hcause
    | part hw hreal =>
      cases hcause
      exact .part hw (hreal y hy hleaf)

theorem Invalid.real_of_unlocated {e : Invalid} {v : Value}
    (h : ∀ f ∈ e.failures, ∃ message, f = .leaf none message) : e.Real v := by
  refine real_of_failures fun f hf => ?_
  obtain ⟨message, rfl⟩ := h f hf
  exact .here message

theorem Invalid.real_mismatch (message : String) (v : Value) : (mismatch message).Real v :=
  real_of_unlocated (List.forall_mem_singleton.mpr ⟨message, rfl⟩)

theorem Invalid.real_simple (message : String) (v : Value) : (simple message).Real v :=
  real_of_unlocated (List.forall_mem_singleton.mpr ⟨message, rfl⟩)

/-- What is refused is refused for reasons that are found in it. -/
def Base.Located (b : Base) : Prop := ∀ v e, b.check v = .invalid e → e.Real v

def Spec.Located (s : Spec) : Prop := ∀ v e, s.check v = .invalid e → e.Real v

theorem Base.located_of_specs {b : Base} (h : ∀ s ∈ b.specs, s.Located) : b.Located := by
  cases b with
  | atom a =>
    intro v e he
    simp only [Base.check, Atom.check] at he
    split at he
    · cases he
    · cases he
      exact Invalid.real_mismatch _ v
  | spec s => exact h s (List.mem_singleton.mpr rfl)

/-! ## Constraints and canonical forms -/

theorem Constraint.unlocated_of_violation {cs : List Constraint} {v : Value} {e : Invalid}
    (h : violation? cs v = some e) : ∀ f ∈ e.failures, ∃ message, f = .leaf none message := by
  unfold violation? at h
  cases hbroken : broken cs v with
  | nil =>
    rw [hbroken] at h
    cases h
  | cons message rest =>
    rw [hbroken] at h
    dsimp only at h
    split at h
    · cases h
      exact List.forall_mem_singleton.mpr ⟨_, rfl⟩
    · cases h
      intro f hf
      have hf : f ∈ (message :: rest).map (Failure.leaf none) := hf
      obtain ⟨text, -, rfl⟩ := List.mem_map.mp hf
      exact ⟨text, rfl⟩

theorem Settings.real_of_enforce {settings : Settings} {v w : Value} {e : Invalid}
    (h : settings.enforce w = .invalid e) : e.Real v := by
  simp only [Settings.enforce, Constraint.enforce] at h
  split at h
  · cases h
  · cases hviolation : Constraint.violation? settings.constraints w with
    | none =>
      rw [hviolation] at h
      cases h
    | some cause =>
      rw [hviolation] at h
      cases h
      exact Invalid.real_of_unlocated (Constraint.unlocated_of_violation hviolation)

theorem Canonicalizer.real_of_apply {c : Canonicalizer} {v w : Value} {e : Invalid}
    (h : c.apply w = .invalid e) : e.Real v := by
  have hfail : ∀ fault text, c.fail fault text = .invalid e → e.Real v := by
    intro fault text hfault
    simp only [fail] at hfault
    cases hfault
    split
    · exact Invalid.real_mismatch _ v
    · exact Invalid.real_simple _ v
  unfold apply at h
  split at h
  · cases h
  · exact hfail _ _ h
  · exact hfail _ _ h
  · exact hfail _ _ h
  · exact hfail _ _ h
  · cases h

theorem Rule.real_of_canonicalize {rule : Rule} {v w : Value} {e : Invalid}
    (h : rule.canonicalize w = .invalid e) : e.Real v := by
  have hoption : ∀ c, Canonicalizer.applyOption c w = .invalid e → e.Real v := by
    intro c hc
    cases c with
    | none => cases hc
    | some c => exact Canonicalizer.real_of_apply hc
  cases rule with
  | scalar a c => exact hoption c h
  | enum members c => exact hoption c h
  | _ => cases h

/-! ## Elements -/

/-- A failure about one of several elements, which are counted from a place on. -/
def Failure.About (items : List Value) (place : Nat) (f : Failure) : Prop :=
  ∃ i item context cause, items[i]? = some item ∧
    f = .caused (some (.index (place + i))) context cause ∧ cause.Real item

theorem Failure.About.cons {items : List Value} {place : Nat} {f : Failure}
    (h : f.About items (place + 1)) (v : Value) : f.About (v :: items) place := by
  obtain ⟨i, item, context, cause, hitem, rfl, hreal⟩ := h
  refine ⟨i + 1, item, context, cause, hitem, ?_, hreal⟩
  rw [Nat.add_assoc, Nat.add_comm 1 i]

theorem about_of_gatherOne {v : Value} {items checked : List Value} {place : Nat}
    {context : String} {o : Outcome Value} {rest : Gathered} {failures : List Failure}
    (hv : ∀ e, o = .invalid e → e.Real v)
    (hrest : ∀ vs fs, rest = .ok (vs, fs) → ∀ f ∈ fs, f.About items (place + 1))
    (h : gatherOne place context o rest = .ok (checked, failures)) :
    ∀ f ∈ failures, f.About (v :: items) place := by
  cases rest with
  | error d => cases o <;> cases h
  | ok r =>
    obtain ⟨vs, fs⟩ := r
    have hlater : ∀ f ∈ fs, f.About (v :: items) place := fun f hf => (hrest vs fs rfl f hf).cons v
    cases o with
    | ok w =>
      cases h
      exact hlater
    | invalid e =>
      cases h
      exact List.forall_mem_cons.mpr ⟨⟨0, v, context, e, rfl, rfl, hv e rfl⟩, hlater⟩
    | defect d => cases h

theorem about_of_gather {check : Value → Outcome Value}
    (hcheck : ∀ v e, check v = .invalid e → e.Real v) {place : Nat} {items checked : List Value}
    {failures : List Failure} (h : gather check place items = .ok (checked, failures)) :
    ∀ f ∈ failures, f.About items place := by
  induction items generalizing place checked failures with
  | nil =>
    cases h
    exact List.forall_mem_nil _
  | cons v rest ih => exact about_of_gatherOne (hcheck v) (fun vs fs hrest => ih hrest) h

theorem about_of_checkPositions {positions : List Base} (hpositions : ∀ b ∈ positions, b.Located)
    {place : Nat} {items checked : List Value} {failures : List Failure}
    (h : checkPositions place positions items = .ok (checked, failures)) :
    ∀ f ∈ failures, f.About items place := by
  induction positions generalizing place items checked failures with
  | nil =>
    cases h
    exact List.forall_mem_nil _
  | cons b bases ih =>
    obtain ⟨hb, hbases⟩ := List.forall_mem_cons.mp hpositions
    cases items with
    | nil =>
      cases h
      exact List.forall_mem_nil _
    | cons v rest => exact about_of_gatherOne (hb v) (fun vs fs hrest => ih hbases hrest) h

theorem Gathered.real_of_close {g : Gathered} {v : Value} {items : List Value}
    (helements : v.elements? = some items) {summary : String} {container : Container}
    (habout : ∀ checked failures, g = .ok (checked, failures) → ∀ f ∈ failures, f.About items 0)
    {e : Invalid} (h : g.close summary container = .invalid e) : e.Real v := by
  rcases g with d | ⟨checked, _ | ⟨f, rest⟩⟩
  · cases h
  · cases h
  · cases h
    refine Invalid.real_of_failures fun g hg => ?_
    obtain ⟨i, item, context, cause, hitem, rfl, hreal⟩ := habout checked (f :: rest) rfl g hg
    refine .part ?_ hreal
    rw [Value.part?, helements, Nat.zero_add]
    exact hitem

theorem Base.real_of_checkAny {types : List Base} (htypes : ∀ b ∈ types, b.Located) {v : Value}
    {e : Invalid} (h : Base.checkAny types v = .invalid e) : e.Real v := by
  unfold Base.checkAny at h
  cases hfirst : firstMatch types v with
  | none =>
    rw [hfirst] at h
    cases h
    exact Invalid.real_mismatch _ v
  | some o =>
    rw [hfirst] at h
    obtain rfl : o = .invalid e := h
    obtain ⟨b, hb, hcheck⟩ := mem_of_firstMatch hfirst
    exact htypes b hb v e hcheck

/-! ## Entries -/

def Rule.Unconditional : Rule → Prop
  | .mapping t => ∀ r ∈ t.keys, ∃ b, r.slot = .type b
  | _ => True

theorem mem_of_takeKey_invalid {patterns : List PatternRule} {key v : Value} {e : Invalid}
    (h : takeKey patterns key v = .invalid e) : ∃ r ∈ patterns, r.type.check v = .invalid e := by
  induction patterns with
  | nil => cases h
  | cons r rest ih =>
    obtain ⟨pattern, type⟩ := r
    rw [takeKey] at h
    cases hp : pattern.check key with
    | ok key' =>
      simp only [hp] at h
      refine ⟨_, List.mem_cons_self, ?_⟩
      cases ht : type.check v with
      | invalid e' =>
        simp only [ht] at h
        cases h
        rfl
      | ok w => simp [ht, Outcome.map] at h
      | defect d => simp [ht, Outcome.map] at h
    | invalid e' =>
      simp only [hp] at h
      obtain ⟨r, hr, hrv⟩ := ih h
      exact ⟨r, List.mem_cons_of_mem _ hr, hrv⟩
    | defect d =>
      simp only [hp] at h
      cases h

section Mappings

variable {t : Mapping} {m : Entries}

/-- A key with a type is refused for its value, or missed when its type does not do without. -/
theorem KeyRule.real_of_reports {key : Value} {b : Base} (sound : ∀ s ∈ b.specs, s.Sound)
    (located : b.Located) {f : Failure} (h : (⟨key, .type b⟩ : KeyRule).Reports m f) :
    f.Real (.map m) := by
  have hf : declaredFailure? m (key, b) = some f := reports_typed h
  simp only [declaredFailure?] at hf
  cases hget : Entries.get? key m with
  | some v =>
    rw [hget, Base.provided?] at hf
    cases hcheck : b.check v with
    | invalid e =>
      rw [hcheck] at hf
      cases hf
      exact .part hget (located v e hcheck)
    | ok w =>
      rw [hcheck] at hf
      cases hf
    | defect d =>
      rw [hcheck] at hf
      cases hf
  | none =>
    rw [hget, Base.provided?] at hf
    cases b with
    | atom a =>
      cases hf
      exact .missing rfl hget
    | spec s =>
      cases hoptional : s.isOptional with
      | true =>
        -- The default of an optional type has been checked when the type was built.
        obtain ⟨d, hd⟩ := (sound s (List.mem_singleton.mpr rfl)).default hoptional
        rw [Base.fallback?, if_pos hoptional, hd] at hf
        cases hf
      | false =>
        rw [Base.fallback?, hoptional] at hf
        cases hf
        exact .missing rfl hget

theorem Mapping.real_of_reports (unconditional : (Rule.mapping t).Unconditional)
    (sound : ∀ s ∈ (Rule.mapping t).specs, s.Sound)
    (located : ∀ s ∈ (Rule.mapping t).specs, s.Located) {f : Failure} (h : t.Reports m f) :
    f.Real (.map m) := by
  rw [Rule.specs, List.forall_mem_append, List.forall_mem_flatMap, List.forall_mem_flatMap]
    at sound located
  cases h with
  | @declared r _ hr hf =>
    obtain ⟨b, hb⟩ := unconditional r hr
    obtain ⟨key, slot⟩ := r
    subst hb
    have hlocated : b.Located := Base.located_of_specs (located.1 _ hr)
    exact KeyRule.real_of_reports (sound.1 _ hr) hlocated hf
  | claimed hclaimed =>
    obtain ⟨v, e, hv, htake, rfl⟩ := claimedFailure_eq_some_iff.mp hclaimed
    obtain ⟨r, hr, hcheck⟩ := mem_of_takeKey_invalid htake
    have htype : r.type.Located :=
      Base.located_of_specs (List.forall_mem_append.mp (located.2 r hr)).2
    exact .part hv (htype v e hcheck)
  | general message => exact .here message

end Mappings

/-! ## Specifications -/

theorem Rule.real_of_check {rule : Rule} (unconditional : rule.Unconditional)
    (sound : ∀ s ∈ rule.specs, s.Sound) (located : ∀ s ∈ rule.specs, s.Located) {v : Value}
    {e : Invalid} (h : rule.check v = .invalid e) : e.Real v := by
  have htypes : ∀ types : List Base, (∀ s ∈ types.flatMap Base.specs, s.Located) →
      ∀ b ∈ types, b.Located := fun types hspecs b hb =>
    Base.located_of_specs (List.forall_mem_flatMap.mp hspecs b hb)
  cases rule with
  | scalar a c => exact Base.located_of_specs (b := .atom a) (List.forall_mem_nil _) v e h
  | enum members c =>
    simp only [check] at h
    split at h
    · cases h
    · cases h
      exact Invalid.real_mismatch _ v
  | union types => exact Base.real_of_checkAny (htypes types located) h
  | iter types container =>
    simp only [check] at h
    cases helements : v.elements? with
    | none =>
      rw [helements] at h
      cases h
      exact Invalid.real_mismatch _ v
    | some items =>
      rw [helements] at h
      refine Gathered.real_of_close helements (fun checked failures hg => ?_) h
      exact about_of_gather (fun w e' => Base.real_of_checkAny (htypes types located)) hg
  | seq positions container =>
    simp only [check] at h
    cases hsequence : v.sequence? with
    | none =>
      rw [hsequence] at h
      cases h
      exact Invalid.real_mismatch _ v
    | some items =>
      rw [hsequence] at h
      dsimp only at h
      split at h
      · refine Gathered.real_of_close (Value.elements_of_sequence hsequence) ?_ h
        exact fun checked failures => about_of_checkPositions (htypes positions located)
      · cases h
        exact Invalid.real_simple _ v
  | mapping t =>
    simp only [check] at h
    cases v with
    | map m =>
      dsimp only [Value.entries?] at h
      rcases hrun : t.run t.unhandledOk m (.start m) with d | ⟨_ | e', p⟩ <;> rw [hrun] at h <;>
        cases h
      refine Invalid.real_of_failures fun f hf => ?_
      exact Mapping.real_of_reports unconditional sound located (Mapping.reported_of_run hrun f hf)
    | _ =>
      cases h
      exact Invalid.real_mismatch _ _

theorem Spec.located_of_throughout {s : Spec} (sound : s.Throughout Sound)
    (unconditional : s.Throughout fun t => t.rule.Unconditional) : s.Located := by
  induction sound with
  | @intro s hs hparts ih =>
    have hlocated : ∀ t ∈ s.rule.specs, t.Located :=
      fun t ht => ih t ht (unconditional.parts t ht)
    intro v e h
    cases hreplaced : s.settings.replaces v with
    | true =>
      -- What stands for the default is accepted, so the error is not about a value from elsewhere.
      obtain ⟨hoptional, hunset⟩ := Bool.and_eq_true_iff.mp hreplaced
      obtain ⟨d, hd⟩ := hs.default hoptional
      rw [check_of_unset hoptional hunset, hd] at h
      cases h
    | false =>
      rw [check_eq_checkGiven, Settings.given_of_kept hreplaced, checkGiven] at h
      cases hrule : s.rule.check v with
      | invalid e' =>
        rw [hrule] at h
        cases h
        exact Rule.real_of_check unconditional.own (fun t ht => (hparts t ht).own) hlocated hrule
      | defect d =>
        rw [hrule] at h
        cases h
      | ok w =>
        rw [hrule, Outcome.ok_bind] at h
        cases henforce : s.settings.enforce w with
        | invalid e' =>
          rw [henforce] at h
          cases h
          exact Settings.real_of_enforce henforce
        | defect d =>
          rw [henforce] at h
          cases h
        | ok w' =>
          rw [henforce, Outcome.ok_bind] at h
          exact Rule.real_of_canonicalize h

/-- Of a specification without conditional keys that has been built, every leaf of an error is about
the whole value, about a part that is reached by its locations, or about a key that is missing in
the part that is reached by all but the last of them. -/
theorem check_located {s : Spec} {v : Value} {e : Invalid} {x : Occurrence} (built : s.Buildable)
    (unconditional : s.Throughout fun t => t.rule.Unconditional) (refused : s.check v = .invalid e)
    (holds : e.Holds x) (leaf : x.failure.cause = none) :
    x.trail = [] ∨ ∃ front last w, x.trail = front ++ [last] ∧ v.follow? front = some w ∧
      ((∃ part, w.part? last = some part) ∨
        ∃ m k, w = .map m ∧ last = .key k ∧ Entries.get? k m = none ∧
          x.failure.message = "Missing required mapping key " ++ k.render) := by
  have hreal : e.Real v := Spec.located_of_throughout built.sound unconditional v e refused
  exact (hreal x holds leaf).reaches

namespace Fleet

def server : Spec :=
  ⟨.required, .mapping ⟨[⟨.str "port", .type (.atom (.kind .int))⟩], [], [], "dict", false⟩⟩

def servers : Spec := ⟨⟨false, .value (.list []), .falsy, []⟩, .iter [.spec server] .list⟩

def spec : Spec :=
  ⟨.required, .mapping ⟨[⟨.str "servers", .type (.spec servers)⟩], [], [], "dict", false⟩⟩

/-- The second server has no port. -/
def request : Value := .map [(.str "servers", .list [.map [(.str "port", .int 80)], .map []])]

def unported : Failure :=
  .leaf (some (.key (.str "port"))) ("Missing required mapping key " ++ (Value.str "port").render)

def second : Failure :=
  .caused (some (.index 1)) ("Index " ++ toString 1 ++ " is invalid")
    (.aggregate "Does not conform with dict schema" unported [])

def entry : Failure :=
  .caused (some (.key (.str "servers"))) ("Invalid value for key " ++ (Value.str "servers").render)
    (.aggregate "Items do not conform with iterable spec" second [])

def refusal : Invalid := .aggregate "Does not conform with dict schema" entry []

theorem holds : refusal.Holds
    ⟨[0, 0, 0], [.key (.str "servers"), .index 1, .key (.str "port")], unported⟩ :=
  .deeper (i := 0) (f := entry) rfl rfl
    (.deeper (i := 0) (f := second) rfl rfl (.direct (i := 0) (f := unported) rfl))

theorem buildable : spec.Buildable :=
  .shorthand
    (d := .mapping [⟨.value (.str "servers"),
      .list [.mapping [⟨.value (.str "port"), .atom (.kind .int)⟩]]⟩])
    (List.forall_mem_nil _) rfl

theorem unconditional : spec.Throughout fun t => t.rule.Unconditional := by
  have hserver : server.Throughout fun t => t.rule.Unconditional :=
    .intro (List.forall_mem_singleton.mpr ⟨_, rfl⟩) (List.forall_mem_nil _)
  have hservers : servers.Throughout fun t => t.rule.Unconditional :=
    .intro trivial (List.forall_mem_singleton.mpr hserver)
  exact .intro (List.forall_mem_singleton.mpr ⟨_, rfl⟩) (List.forall_mem_singleton.mpr hservers)

end Fleet

theorem check_located_fleet : ∃ front last w,
    [.key (.str "servers"), .index 1, .key (.str "port")] = front ++ [last] ∧
      Fleet.request.follow? front = some w ∧
      ((∃ part, w.part? last = some part) ∨
        ∃ m k, w = .map m ∧ last = .key k ∧ Entries.get? k m = none ∧
          Fleet.unported.message = "Missing required mapping key " ++ k.render) := by
  have refused : Fleet.spec.check Fleet.request = .invalid Fleet.refusal := rfl
  have leaf : Fleet.unported.cause = none := rfl
  have located := check_located Fleet.buildable Fleet.unconditional refused Fleet.holds leaf
  exact located.resolve_left (List.cons_ne_nil _ _)

end Conformance
