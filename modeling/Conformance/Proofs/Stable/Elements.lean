import Conformance.Proofs.Spec.Gathering
import Conformance.Proofs.Spec.Verdict
import Conformance.Proofs.Stable.Plain
import Conformance.Proofs.Value.Entries

/-! # Checking a checked value again: single values and collections -/

namespace Conformance

/-- Whatever the check of a value has given, its check gives once more. -/
def Base.Stable (b : Base) : Prop := ∀ ⦃v c⦄, b.check v = .ok c → b.check c = .ok c

def Rule.Stable (r : Rule) : Prop := ∀ ⦃v c⦄, r.check v = .ok c → r.check c = .ok c

/-- A collection or mapping is unset at most when it is empty, and then whatever kind it is of. -/
structure Unset.Uniform (u : Unset) : Prop where
  filled : ∀ {container items}, u.holds (Container.collect container items) = true → items = []
  empty : ∀ {v w}, v.elements? = some [] → w.elements? = some [] →
    u.holds v = true → u.holds w = true
  mapping : ∀ {m}, u.holds (.map m) = true → m = []

/-- What counts as unset after the check counted as unset before. -/
def Rule.KeepsSet (r : Rule) : Prop :=
  ∀ ⦃v c⦄ ⦃u : Unset⦄, u.Uniform → r.check v = .ok c → u.holds c = true → u.holds v = true

theorem Rule.stable_of_same {r : Rule} (h : ∀ v c, r.check v = .ok c → c = v) : r.Stable := by
  intro v c hc
  obtain rfl := h v c hc
  exact hc

theorem Rule.keepsSet_of_same {r : Rule} (h : ∀ v c, r.check v = .ok c → c = v) : r.KeepsSet := by
  intro v c u _ hc hu
  rwa [h v c hc] at hu

/-! ## Atoms and unions of atoms -/

theorem Atom.check_ok_iff {a : Atom} {v c : Value} :
    a.check v = .ok c ↔ c = v ∧ a.includes v = true := by
  rw [Atom.check]
  split
  · next h =>
    rw [Outcome.ok.injEq, eq_comm]
    exact (and_iff_left h).symm
  · next h => simp [h]

theorem Base.check_of_isAtom {b : Base} (hb : b.IsAtom) {v c : Value} (h : b.check v = .ok c) :
    c = v := by
  cases b with
  | atom a => exact (Atom.check_ok_iff.mp h).1
  | spec s => exact hb.elim

theorem Rule.scalar_same {a : Atom} {c : Option Canonicalizer} {v w : Value}
    (h : (Rule.scalar a c).check v = .ok w) : w = v :=
  (Atom.check_ok_iff.mp h).1

theorem Rule.enum_same {members : List Value} {c : Option Canonicalizer} {v w : Value}
    (h : (Rule.enum members c).check v = .ok w) : w = v := by
  simp only [Rule.check] at h
  split at h <;> cases h
  rfl

theorem firstMatch_cons (b : Base) (rest : List Base) (v : Value) :
    firstMatch (b :: rest) v =
      if (b.check v).isMismatch then firstMatch rest v else some (b.check v) := by
  simp only [firstMatch]
  cases b.check v with
  | ok w => rfl
  | invalid e => cases he : e.isMismatch <;> simp [Outcome.isMismatch, he]
  | defect d => rfl

theorem mem_of_firstMatch {types : List Base} {v : Value} {o : Outcome Value}
    (h : firstMatch types v = some o) : ∃ b ∈ types, b.check v = o := by
  induction types with
  | nil => cases h
  | cons b rest ih =>
    rw [firstMatch_cons] at h
    split at h
    · obtain ⟨a, ha, ho⟩ := ih h
      exact ⟨a, List.mem_cons_of_mem b ha, ho⟩
    · exact ⟨b, List.mem_cons_self, Option.some.inj h⟩

theorem Base.checkAny_ok_iff {types : List Base} {v c : Value} :
    Base.checkAny types v = .ok c ↔ firstMatch types v = some (.ok c) := by
  cases h : firstMatch types v <;> simp [Base.checkAny, answer, h]

/-- What a list of types accepts is accepted by one of them. -/
theorem Base.mem_of_checkAny {types : List Base} {v c : Value}
    (h : Base.checkAny types v = .ok c) : ∃ b ∈ types, b.check v = .ok c :=
  mem_of_firstMatch (Base.checkAny_ok_iff.mp h)

theorem Base.checkAny_of_isAtom {types : List Base} (ht : ∀ b ∈ types, b.IsAtom) {v c : Value}
    (h : Base.checkAny types v = .ok c) : c = v := by
  obtain ⟨b, hb, hc⟩ := Base.mem_of_checkAny h
  exact Base.check_of_isAtom (ht b hb) hc

/-- Of a single type a list of types has only the message of a mismatch. -/
theorem Base.checkAny_singleton {b : Base} {v c : Value} :
    Base.checkAny [b] v = .ok c ↔ b.check v = .ok c := by
  rw [Base.checkAny_ok_iff]
  simp only [firstMatch]
  cases b.check v with
  | ok w => simp
  | invalid e => cases h : e.isMismatch <;> simp [h]
  | defect d => simp

/-! ## Collections -/

/-- A collection has its elements in it, a set in ascending order and once. -/
theorem Container.elements_collect (container : Container) (checked : List Value) :
    ∃ items, (container.collect checked).elements? = some items ∧ (∀ v ∈ items, v ∈ checked) ∧
      container.collect items = container.collect checked := by
  cases container with
  | list => exact ⟨checked, rfl, fun _ h => h, rfl⟩
  | tuple => exact ⟨checked, rfl, fun _ h => h, rfl⟩
  | set =>
    refine ⟨Value.members checked, rfl, fun _ => Value.mem_members.mp, ?_⟩
    exact congrArg Value.set (Value.members_of_ascending (Value.ascending_members checked))

/-- An empty collection is gathered from no elements. -/
theorem Container.eq_nil_of_not_isTruthy {container : Container} {checked : List Value}
    (h : (container.collect checked).isTruthy = false) : checked = [] := by
  cases container with
  | list => simpa [Container.collect, Value.isTruthy] using h
  | tuple => simpa [Container.collect, Value.isTruthy] using h
  | set =>
    have hm : Value.members checked = [] := by
      simpa [Container.collect, Value.ofMembers, Value.isTruthy] using h
    refine List.eq_nil_iff_forall_not_mem.mpr fun v hv => ?_
    rw [← Value.mem_members, hm] at hv
    cases hv

theorem Container.elements_collect_nil (container : Container) :
    (container.collect []).elements? = some [] := by
  cases container <;> rfl

theorem Unset.not_isTruthy {u : Unset} (hu : u.IsPlain) {v : Value} (h : u.holds v = true) :
    v.isTruthy = false := by
  cases u <;> simp_all [Unset.holds, Unset.IsPlain]

theorem Unset.uniform_of_plain {u : Unset} (hu : u.IsPlain) : u.Uniform where
  filled h := Container.eq_nil_of_not_isTruthy (Unset.not_isTruthy hu h)
  empty {v w} _ hw _ := by
    cases u with
    | custom f => exact hu.elim
    | _ => cases w <;> simp_all [Value.elements?, Unset.holds, Value.isTruthy, Kind.includes]
  mapping {m} h := by simpa [Value.isTruthy] using Unset.not_isTruthy hu h

theorem Value.elements_of_sequence {v : Value} {items : List Value} (h : v.sequence? = some items) :
    v.elements? = some items := by
  cases v <;> simp_all [Value.sequence?, Value.elements?]

theorem Rule.iter_check_ok_iff {types : List Base} {container : Container} {v c : Value} :
    (Rule.iter types container).check v = .ok c ↔
      ∃ items checked, v.elements? = some items ∧
        List.Forall₂ (fun v c => Base.checkAny types v = .ok c) items checked ∧
        c = container.collect checked := by
  simp only [Rule.check]
  cases v.elements? with
  | none => simp
  | some items =>
    change (gather (Base.checkAny types) 0 items).close _ container = .ok c ↔ _
    simp only [Gathered.close_ok_iff, gather_ok_iff, Option.some.injEq, exists_and_left,
      exists_eq_left']

theorem Rule.stable_iter {types : List Base} (container : Container)
    (h : ∀ v c, Base.checkAny types v = .ok c → Base.checkAny types c = .ok c) :
    (Rule.iter types container).Stable := by
  intro v c hc
  obtain ⟨items, checked, -, hall, rfl⟩ := Rule.iter_check_ok_iff.mp hc
  obtain ⟨again, helements, hmem, hcollect⟩ := container.elements_collect checked
  refine Rule.iter_check_ok_iff.mpr ⟨again, again, helements, ?_, hcollect.symm⟩
  have hchecked : ∀ w ∈ checked, Base.checkAny types w = .ok w :=
    ((List.forall₂_and_left _ _).mp (hall.flip.imp fun w v hv => ⟨h v w hv, hv⟩)).1
  exact List.forall₂_same.mpr fun w hw => hchecked w (hmem w hw)

theorem Rule.keepsSet_iter (types : List Base) (container : Container) :
    (Rule.iter types container).KeepsSet := by
  intro v c u hu hc hunset
  obtain ⟨items, checked, helements, hall, rfl⟩ := Rule.iter_check_ok_iff.mp hc
  obtain rfl := hu.filled hunset
  cases hall
  exact hu.empty (Container.elements_collect_nil container) helements hunset

/-! ## Sequences -/

theorem length_checkPositions {bases : List Base} {place : Nat} {items checked : List Value}
    (hlength : items.length = bases.length)
    (hc : checkPositions place bases items = .ok (checked, [])) :
    checked.length = bases.length := by
  rw [← (checkPositions_ok_iff.mp hc).length_eq, List.length_zipWith, hlength, Nat.min_self]

theorem checkPositions_stable {bases : List Base} (h : ∀ b ∈ bases, b.Stable) {place : Nat}
    {items checked : List Value} (hlength : items.length = bases.length)
    (hc : checkPositions place bases items = .ok (checked, [])) :
    checkPositions place bases checked = .ok (checked, []) := by
  induction bases generalizing place items checked with
  | nil =>
    cases hc
    rfl
  | cons b rest ih =>
    obtain ⟨hb, hrest⟩ := List.forall_mem_cons.mp h
    cases items with
    | nil => cases hlength
    | cons v items =>
      obtain ⟨w, ws, hw, hws, rfl⟩ := gatherOne_ok_iff.mp hc
      have hagain := ih hrest (Nat.succ.inj hlength) hws
      exact gatherOne_ok_iff.mpr ⟨w, ws, hb hw, hagain, rfl⟩

theorem Rule.seq_check_ok_iff {positions : List Base} {container : Container} {v c : Value} :
    (Rule.seq positions container).check v = .ok c ↔
      ∃ items checked, v.sequence? = some items ∧ items.length = positions.length ∧
        checkPositions 0 positions items = .ok (checked, []) ∧
        c = container.collect checked := by
  simp only [Rule.check]
  cases v.sequence? with
  | none => simp
  | some items =>
    by_cases hlength : items.length = positions.length <;>
      simp [hlength, Gathered.close_ok_iff]

theorem Container.sequence_collect {container : Container} (h : container ≠ .set)
    (checked : List Value) : (container.collect checked).sequence? = some checked := by
  cases container with
  | set => exact absurd rfl h
  | _ => rfl

theorem Rule.stable_seq {positions : List Base} {container : Container} (hset : container ≠ .set)
    (h : ∀ b ∈ positions, b.Stable) : (Rule.seq positions container).Stable := by
  intro v c hc
  obtain ⟨items, checked, -, hlength, hchecked, rfl⟩ := Rule.seq_check_ok_iff.mp hc
  exact Rule.seq_check_ok_iff.mpr
    ⟨checked, checked, Container.sequence_collect hset checked,
      length_checkPositions hlength hchecked, checkPositions_stable h hlength hchecked, rfl⟩

theorem Rule.keepsSet_seq (positions : List Base) (container : Container) :
    (Rule.seq positions container).KeepsSet := by
  intro v c u hu hc hunset
  obtain ⟨items, checked, hitems, hlength, hchecked, rfl⟩ := Rule.seq_check_ok_iff.mp hc
  obtain rfl := hu.filled hunset
  have hlen := length_checkPositions hlength hchecked
  rw [← hlength] at hlen
  rw [List.length_eq_zero_iff.mp hlen.symm] at hitems
  exact hu.empty (Container.elements_collect_nil container) (Value.elements_of_sequence hitems)
    hunset

/-! ## Specifications -/

/-- A checked value that is unset can only come from the default, which then is checked again. -/
theorem Spec.stable_of_rule {settings : Settings} {rule : Rule} (unset : settings.unset.IsPlain)
    (canonical : ∀ w, rule.canonicalize w = .ok w) (stable : rule.Stable)
    (keeps : settings.optional = true → rule.KeepsSet) :
    (Base.spec ⟨settings, rule⟩).Stable := by
  intro v c h
  obtain ⟨w, hw, hconstraints, hc⟩ := Spec.check_ok_iff.mp h
  rw [canonical] at hc
  cases hc
  refine Spec.check_ok_iff.mpr ⟨c, ?_, hconstraints, canonical c⟩
  by_cases hr : settings.replaces c = true
  -- The checked value gives way to the default, so the default must be what was checked before.
  · obtain ⟨hoptional, hunset⟩ := Bool.and_eq_true_iff.mp hr
    have hgiven : settings.unset.holds (settings.given v) = true :=
      keeps hoptional (Unset.uniform_of_plain unset) hw hunset
    have hdefault : settings.given v = settings.default.produce := by
      by_cases hv : settings.replaces v = true
      · exact Settings.given_of_replaced hv
      · have hkept := Settings.given_of_kept (eq_false_of_ne_true hv)
        rw [hkept] at hgiven
        exact absurd (Bool.and_eq_true_iff.mpr ⟨hoptional, hgiven⟩) hv
    rw [Settings.given_of_replaced hr, ← hdefault]
    exact hw
  · rw [Settings.given_of_kept (eq_false_of_ne_true hr)]
    exact stable hw

end Conformance
