import Conformance.Catalog
import Conformance.Proofs.Decimal.Numerals
import Conformance.Proofs.Spec.Narrowing
import Conformance.Proofs.Union.Ownership

/-! # Integers and ports

An integer is taken as it is, and a text for the integer that it denotes. A text that denotes none
is of another type. Ports are such integers within bounds. The bounds are a constraint on what has
been read, so a number out of bounds is told so, however it has been written.
-/

namespace Conformance.Catalog

def IsNumeralOf (s : String) (i : Int64) : Prop :=
  ∃ front numeral back, s.toList = front ++ numeral ++ back ∧
    (∀ c ∈ front, Text.isBlank c = true) ∧ (∀ c ∈ back, Text.isBlank c = true) ∧
    Decimal.Numeral numeral i.toInt

inductive StandsFor : Value → Int64 → Prop
  | int (i : Int64) : StandsFor (.int i) i
  | text {s : String} {i : Int64} : IsNumeralOf s i → StandsFor (.str s) i

def IsPort (i : Int64) : Prop := 1 ≤ i.toInt ∧ i.toInt ≤ 65535

/-- What stands for an integer becomes the integer, and nothing else is accepted. -/
structure ReadsIntegers (integer : Spec) : Prop where
  accepts_iff : ∀ v c, integer.check v = .ok c ↔ ∃ i, StandsFor v i ∧ c = .int i
  refused : ∀ v, (∀ i, ¬ StandsFor v i) →
    integer.check v = .invalid (.mismatch "Must be one of: int, str")
  again : ∀ v c, integer.check v = .ok c → integer.check c = .ok c

/-- Of what is accepted as an integer, ports are accepted, and what is none breaks a constraint. -/
structure ReadsPorts (integer port : Spec) : Prop where
  accepts_iff : ∀ v c, port.check v = .ok c ↔
    ∃ i, integer.check v = .ok (.int i) ∧ IsPort i ∧ c = .int i
  outside : ∀ v i, integer.check v = .ok (.int i) → ¬ IsPort i →
    port.check v = .invalid (.simple
      "Does not meet value constraint: Must be in port number range 1-65535")
  unread : ∀ v, (∀ c, integer.check v ≠ .ok c) → port.check v = integer.check v
  again : ∀ v c, port.check v = .ok c → port.check c = .ok c

/-! ## Integers -/

section Integers

variable {l : Label} {s : String} {v c : Value} {i : Int64}

def parsed (l : Label) : Spec :=
  Options.scalar {} (.kind .str)
    ⟨⟨l, onText expectedText fun s => parseInteger (trimmed s)⟩, true⟩

def integerTypes (l : Label) : List Base := [.atom (.kind .int), .spec (parsed l)]

def integerSpec (l : Label) : Spec :=
  ⟨Options.resolve {} (.value .null) .empty, .union (integerTypes l)⟩

theorem userInteger_eq (l : Label) : userInteger l = .ok (integerSpec l) := rfl

theorem check_integerSpec (l : Label) (v : Value) :
    (integerSpec l).check v = Base.checkAny (integerTypes l) v :=
  Spec.check_of_required rfl rfl fun _ => rfl

theorem isNumeralOf_iff : IsNumeralOf s i ↔ Decimal.readInteger (trimmed s) = .ok i :=
  Text.numeral_trim_iff.symm.trans Decimal.readInteger_ok_iff.symm

theorem check_parsed (l : Label) (s : String) :
    (parsed l).check (.str s) = match Decimal.readInteger (trimmed s) with
      | .ok i => .ok (.int i)
      | .error fault =>
        .invalid (.mismatch ("invalid value during canonicalization: " ++ fault.message)) := by
  rw [parsed, Spec.check_scalar_of_met (by decide) rfl (List.forall_mem_nil _)]
  simp only [Canonicalizer.apply, onText, Value.toText?, parseInteger]
  cases Decimal.readInteger (trimmed s) <;> rfl

theorem isMismatch_parsed (l : Label) (h : v.toText? = none) :
    ((parsed l).check v).isMismatch = true := by
  have hkind : (Atom.kind .str).check v = .invalid (.mismatch "Must be str") := by
    cases v with
    | str s => cases h
    | _ => rfl
  rw [parsed, Spec.check_scalar (by decide), hkind]
  rfl

theorem checkAny_integerTypes_text (h : IsNumeralOf s i) :
    Base.checkAny (integerTypes l) (.str s) = .ok (.int i) := by
  have hparsed : (parsed l).check (.str s) = .ok (.int i) := by
    rw [check_parsed, isNumeralOf_iff.mp h]
  have hpassed : ∀ b ∈ [Base.atom (.kind .int)], (b.check (.str s)).isMismatch = true :=
    List.forall_mem_singleton.mpr rfl
  have howns : ((Base.spec (parsed l)).check (.str s)).isMismatch = false :=
    congrArg Outcome.isMismatch hparsed
  exact (checkAny_of_owner hpassed howns).trans hparsed

theorem checkAny_integerTypes_other (h : ∀ i, ¬ StandsFor v i) :
    Base.checkAny (integerTypes l) v = .invalid (.mismatch "Must be one of: int, str") := by
  have hint : ((Base.atom (.kind .int)).check v).isMismatch = true := by
    cases v with
    | int i => exact absurd (.int i) (h i)
    | _ => rfl
  have hparsed : ((Base.spec (parsed l)).check v).isMismatch = true := by
    cases htext : v.toText? with
    | none => exact isMismatch_parsed l htext
    | some s =>
      cases v <;> cases htext
      have hcheck := check_parsed l s
      cases hread : Decimal.readInteger (trimmed s) with
      | ok i => exact absurd (.text (isNumeralOf_iff.mpr hread)) (h i)
      | error fault =>
        rw [hread] at hcheck
        exact congrArg Outcome.isMismatch hcheck
  rw [Base.checkAny, integerTypes, firstMatch_cons, if_pos hint, firstMatch_cons, if_pos hparsed]
  rfl

theorem check_integerSpec_of_standsFor (h : StandsFor v i) :
    (integerSpec l).check v = .ok (.int i) := by
  rw [check_integerSpec]
  cases h with
  | int => rfl
  | text h => exact checkAny_integerTypes_text h

theorem check_integerSpec_ok_iff :
    (integerSpec l).check v = .ok c ↔ ∃ i, StandsFor v i ∧ c = .int i := by
  constructor
  · intro h
    by_cases hv : ∃ i, StandsFor v i
    · obtain ⟨i, hi⟩ := hv
      rw [check_integerSpec_of_standsFor hi] at h
      exact ⟨i, hi, (Outcome.ok.inj h).symm⟩
    · rw [check_integerSpec, checkAny_integerTypes_other (not_exists.mp hv)] at h
      cases h
  · rintro ⟨i, hi, rfl⟩
    exact check_integerSpec_of_standsFor hi

theorem readsIntegers (l : Label) : ReadsIntegers (integerSpec l) where
  accepts_iff _ _ := check_integerSpec_ok_iff
  refused v h := by rw [check_integerSpec, checkAny_integerTypes_other h]
  again v c h := by
    obtain ⟨i, -, rfl⟩ := check_integerSpec_ok_iff.mp h
    exact check_integerSpec_of_standsFor (.int i)

end Integers

/-! ## Ports -/

section Ports

variable {l : Label} {v c : Value} {i : Int64}

def portSpec (l : Label) : Spec := (integerSpec (l.part 0)).constrain [portRange (l.part 1)]

theorem portNumber_eq (l : Label) : portNumber l = .ok (portSpec l) := rfl

theorem check_integerSpec_congr (l l' : Label) (v : Value) :
    (integerSpec l).check v = (integerSpec l').check v := by
  by_cases hv : ∃ i, StandsFor v i
  · obtain ⟨i, hi⟩ := hv
    rw [check_integerSpec_of_standsFor hi, check_integerSpec_of_standsFor hi]
  · have hother := not_exists.mp hv
    rw [(readsIntegers l).refused v hother, (readsIntegers l').refused v hother]

/-- The bounds are asked about the integer that has been read. -/
theorem check_portSpec (l l' : Label) (v : Value) :
    (portSpec l).check v =
      ((integerSpec l').check v).bind (Constraint.enforce [portRange (l.part 1)]) := by
  have hrequired : (portSpec l).settings.optional = false := rfl
  have hgiven : (portSpec l).settings.given v = v :=
    Settings.given_of_kept (Settings.replaces_of_required hrequired v)
  have hrule : (portSpec l).rule.check v = (integerSpec l').check v :=
    (check_integerSpec (l.part 0) v).symm.trans (check_integerSpec_congr _ l' v)
  have henforce : (portSpec l).settings.enforce = Constraint.enforce [portRange (l.part 1)] :=
    funext fun w => Spec.enforce_of_asked (Settings.replaces_of_required hrequired w)
  rw [Spec.check_eq_checkGiven, hgiven, Spec.checkGiven, hrule, henforce]
  cases ((integerSpec l').check v).bind (Constraint.enforce [portRange (l.part 1)]) <;> rfl

theorem portRange_holds_iff : (portRange l).holds (.int i) = true ↔ IsPort i := by
  have hone : (1 : Int64).toInt = 1 := rfl
  have hmost : (65535 : Int64).toInt = 65535 := rfl
  simp [Constraint.holds, portRange, Value.toInt?, IsPort, Int64.le_iff_toInt_le, hone, hmost]

theorem enforce_portRange_of_isPort (h : IsPort i) :
    Constraint.enforce [portRange l] (.int i) = .ok (.int i) :=
  Constraint.enforce_ok_iff.mpr
    ⟨rfl, List.forall_mem_singleton.mpr (portRange_holds_iff.mpr h)⟩

theorem enforce_portRange_of_not_isPort (h : ¬ IsPort i) :
    Constraint.enforce [portRange l] (.int i) = .invalid (.simple
      "Does not meet value constraint: Must be in port number range 1-65535") := by
  have hbroken : (portRange l).holds (.int i) = false :=
    Bool.eq_false_iff.mpr (mt portRange_holds_iff.mp h)
  have hmessages : Constraint.broken [portRange l] (.int i) = [(portRange l).message] := by
    simp [Constraint.broken, hbroken]
  rw [Constraint.enforce, Constraint.violation?, hmessages]
  rfl

theorem readsPorts (l l' : Label) : ReadsPorts (integerSpec l') (portSpec l) := by
  have haccepts : ∀ v c, (portSpec l).check v = .ok c ↔
      ∃ i, (integerSpec l').check v = .ok (.int i) ∧ IsPort i ∧ c = .int i := by
    intro v c
    rw [check_portSpec l l', Outcome.bind_ok_iff]
    constructor
    · rintro ⟨w, hw, hc⟩
      obtain ⟨i, -, rfl⟩ := check_integerSpec_ok_iff.mp hw
      obtain ⟨rfl, hmet⟩ := Constraint.enforce_ok_iff.mp hc
      exact ⟨i, hw, portRange_holds_iff.mp (hmet _ List.mem_cons_self), rfl⟩
    · rintro ⟨i, hi, hport, rfl⟩
      exact ⟨_, hi, enforce_portRange_of_isPort hport⟩
  refine ⟨haccepts, fun v i hi hport => ?_, fun v hv => ?_, fun v c hc => ?_⟩
  · rw [check_portSpec l l', hi]
    exact enforce_portRange_of_not_isPort hport
  · rw [check_portSpec l l']
    cases hcheck : (integerSpec l').check v with
    | ok c => exact absurd hcheck (hv c)
    | invalid e => rfl
    | defect d => rfl
  · obtain ⟨i, -, hport, rfl⟩ := (haccepts v c).mp hc
    exact (haccepts _ _).mpr ⟨i, check_integerSpec_of_standsFor (.int i), hport, rfl⟩

end Ports

/-- Integers are accepted as they are, and texts if they denote an integer of 64 bits, with blanks
around it or none. Ports are the integers so read that lie between their bounds. An integer out of
these bounds breaks the constraint, and only what is no integer is of none of the types. What is
accepted once is accepted again without a change. -/
theorem check_integers_and_ports (l l' : Label) :
    ∃ integer port, userInteger l = .ok integer ∧ portNumber l' = .ok port ∧
      ReadsIntegers integer ∧ ReadsPorts integer port :=
  ⟨integerSpec l, portSpec l', userInteger_eq l, portNumber_eq l', readsIntegers l,
    readsPorts l' l⟩

/-- A port in an unusual spelling, the least integer, and numbers beyond either limit. -/
theorem check_integers_and_ports_spelled :
    ∃ integer port, userInteger ⟨[0]⟩ = .ok integer ∧ portNumber ⟨[1]⟩ = .ok port ∧
      port.check (.str " +0443\n") = .ok (.int 443) ∧
      integer.check (.str "-9223372036854775808") = .ok (.int Int64.minValue) ∧
      integer.check (.str "9223372036854775808") =
        .invalid (.mismatch "Must be one of: int, str") ∧
      port.check (.str "70000") = .invalid (.simple
        "Does not meet value constraint: Must be in port number range 1-65535") := by
  obtain ⟨integer, port, hinteger, hport, hreads, hports⟩ :=
    check_integers_and_ports ⟨[0]⟩ ⟨[1]⟩
  have hread : ∀ s i, Decimal.readInteger (trimmed s) = .ok i →
      integer.check (.str s) = .ok (.int i) := fun s i h =>
    (hreads.accepts_iff _ _).mpr ⟨i, .text (isNumeralOf_iff.mpr h), rfl⟩
  have hbeyond : ∀ i, ¬ StandsFor (.str "9223372036854775808") i := by
    intro i hi
    cases hi with
    | text h => cases isNumeralOf_iff.mp h
  have hsmall : IsPort 443 := ⟨by decide, by decide⟩
  have hlarge : ¬ IsPort 70000 := fun h => absurd h.2 (by decide)
  exact ⟨integer, port, hinteger, hport,
    (hports.accepts_iff _ _).mpr ⟨443, hread _ _ rfl, hsmall, rfl⟩, hread _ _ rfl,
    hreads.refused _ hbeyond, hports.outside _ _ (hread _ 70000 rfl) hlarge⟩

end Conformance.Catalog
