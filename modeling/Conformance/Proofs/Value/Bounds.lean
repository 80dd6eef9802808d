import Conformance.Constraint.Factory
import Conformance.Proofs.Binary64.Integers
import Conformance.Proofs.Value.Order

/-! # Comparison of bounds

Two integers are compared exactly, an integer and a floating-point number after the integer has been
rounded, and other values in the order of their variant. The comparison is transitive but for one
case: two integers may both be rounded to the floating-point number between them, which then counts
as equal to the greater one and to the smaller one.
-/

namespace Conformance

namespace Value

/-- The two values can be compared, and the first one is not the greater. -/
def AtMost (a b : Value) : Prop := (a.relate? b).any Ordering.isLE = true

instance (a b : Value) : Decidable (AtMost a b) :=
  inferInstanceAs (Decidable ((a.relate? b).any Ordering.isLE = true))

/-- The floating-point number counts as equal to two integers, of which the greater comes first. -/
inductive Blurs : Value → Value → Value → Prop
  | intro {x : Binary64} {i j : Int64} (greater : relate? (.int i) (.float x) = some .eq)
      (smaller : relate? (.float x) (.int j) = some .eq) (lt : j < i) :
      Blurs (.float x) (.int i) (.int j)

/-! ## Places of numbers -/

/-- The place of a number among the floating-point numbers, unless it is not a number at all. -/
def place? : Value → Option Int
  | .int i => some (Binary64.ofInt i.toInt).lineKey
  | .float x => if x.isNaN then none else some x.lineKey
  | _ => none

def isInt : Value → Bool
  | .int _ => true
  | _ => false

def isNumber : Value → Bool
  | .int _ | .float _ => true
  | _ => false

section Comparison

variable {a b c : Value} {o : Ordering}

theorem place?_int (i : Int64) : place? (.int i) = place? (.float (.ofInt i.toInt)) := by
  simp [place?, Binary64.isNaN_ofInt]

theorem compareLine?_eq (x y : Binary64) :
    x.compareLine? y = (place? (.float x)).bind fun p =>
      (place? (.float y)).map fun q => Ord.compare p q := by
  cases hx : x.isNaN <;> cases hy : y.isNaN <;> simp [Binary64.compareLine?, place?, hx, hy]

theorem eq_of_isNumber (h : a.isNumber = true) : (∃ i, a = .int i) ∨ ∃ x, a = .float x := by
  cases a with
  | int i => exact .inl ⟨i, rfl⟩
  | float x => exact .inr ⟨x, rfl⟩
  | _ => cases h

theorem eq_of_isInt (h : a.isInt = true) : ∃ i, a = .int i := by
  cases a with
  | int i => exact ⟨i, rfl⟩
  | _ => cases h

/-- Numbers are compared by their places, unless both are integers. -/
theorem relate?_of_mixed (ha : a.isNumber = true) (hb : b.isNumber = true)
    (mixed : (a.isInt && b.isInt) = false) :
    a.relate? b = a.place?.bind fun p => b.place?.map fun q => Ord.compare p q := by
  rcases eq_of_isNumber ha with ⟨i, rfl⟩ | ⟨x, rfl⟩ <;>
    rcases eq_of_isNumber hb with ⟨j, rfl⟩ | ⟨y, rfl⟩
  · cases mixed
  · rw [relate?, compareLine?_eq, place?_int]
  · rw [relate?, compareLine?_eq, place?_int]
  · rw [relate?, compareLine?_eq]

/-- Values that are not both numbers are compared in the order of their variant. -/
theorem relate?_of_other (h : (a.isNumber && b.isNumber) = false) :
    a.relate? b = if a.rank = b.rank then some (compare a b) else none := by
  cases a <;> cases b <;> first | rfl | cases h

theorem isNumber_of_rank_eq (h : a.rank = b.rank) : a.isNumber = b.isNumber := by
  cases a <;> cases b <;> first | rfl | cases h

theorem compareLine?_swap (x y : Binary64) :
    x.compareLine? y = (y.compareLine? x).map Ordering.swap := by
  rw [Binary64.compareLine?, Binary64.compareLine?, Bool.or_comm]
  split
  · rfl
  · rw [Option.map_some, ← Std.OrientedOrd.eq_swap]

theorem relate?_swap (a b : Value) : a.relate? b = (b.relate? a).map Ordering.swap := by
  cases hnumbers : a.isNumber && b.isNumber with
  | false =>
    rw [relate?_of_other hnumbers, relate?_of_other (Bool.and_comm .. ▸ hnumbers), compare_swap a b]
    by_cases hrank : a.rank = b.rank
    · rw [if_pos hrank, if_pos hrank.symm, Option.map_some]
    · rw [if_neg hrank, if_neg (Ne.symm hrank), Option.map_none]
  | true =>
    obtain ⟨ha, hb⟩ := Bool.and_eq_true_iff.mp hnumbers
    rcases eq_of_isNumber ha with ⟨i, rfl⟩ | ⟨x, rfl⟩ <;>
      rcases eq_of_isNumber hb with ⟨j, rfl⟩ | ⟨y, rfl⟩
    · rw [relate?, relate?, Option.map_some, ← Std.OrientedOrd.eq_swap]
    all_goals exact compareLine?_swap _ _

/-! ## Transitivity -/

theorem atMost_iff : AtMost a b ↔ ∃ o, a.relate? b = some o ∧ o.isLE = true := by
  unfold AtMost
  cases a.relate? b <;> simp

theorem atMost_iff_isGE : (a.relate? b).any Ordering.isGE = true ↔ AtMost b a := by
  rw [AtMost, relate?_swap b a, Option.any_map]
  simp

theorem atMost_int_iff {i j : Int64} : AtMost (.int i) (.int j) ↔ i ≤ j := by
  rw [AtMost, relate?, Option.any_some, Std.isLE_compare]

theorem AtMost.isNumber_eq (h : AtMost a b) : a.isNumber = b.isNumber := by
  obtain ⟨o, ho, -⟩ := atMost_iff.mp h
  cases hnumbers : a.isNumber && b.isNumber with
  | false =>
    rw [relate?_of_other hnumbers] at ho
    by_cases hrank : a.rank = b.rank
    · exact isNumber_of_rank_eq hrank
    · rw [if_neg hrank] at ho
      cases ho
  | true =>
    obtain ⟨ha, hb⟩ := Bool.and_eq_true_iff.mp hnumbers
    rw [ha, hb]

/-- Unless both are integers, numbers are in the order of their places. -/
theorem atMost_iff_places (ha : a.isNumber = true) (hb : b.isNumber = true)
    (mixed : (a.isInt && b.isInt) = false) :
    AtMost a b ↔ ∃ p q, a.place? = some p ∧ b.place? = some q ∧ p ≤ q := by
  rw [AtMost, relate?_of_mixed ha hb mixed]
  cases a.place? <;> cases b.place? <;> simp [Std.isLE_compare]

/-- Numbers keep their order among the floating-point numbers, integers included. -/
theorem AtMost.places (h : AtMost a b) (ha : a.isNumber = true) :
    ∃ p q, a.place? = some p ∧ b.place? = some q ∧ p ≤ q := by
  have hb : b.isNumber = true := h.isNumber_eq.symm.trans ha
  cases hints : a.isInt && b.isInt with
  | false => exact (atMost_iff_places ha hb hints).mp h
  | true =>
    obtain ⟨hai, hbi⟩ := Bool.and_eq_true_iff.mp hints
    obtain ⟨i, rfl⟩ := eq_of_isInt hai
    obtain ⟨j, rfl⟩ := eq_of_isInt hbi
    have hle : i.toInt ≤ j.toInt := Int64.le_iff_toInt_le.mp (atMost_int_iff.mp h)
    exact ⟨_, _, rfl, rfl, Binary64.lineKey_ofInt_mono hle⟩

theorem atMost_trans_of_mixed (hab : AtMost a b) (hbc : AtMost b c) (ha : a.isNumber = true)
    (mixed : (a.isInt && c.isInt) = false) : AtMost a c := by
  have hb : b.isNumber = true := hab.isNumber_eq.symm.trans ha
  have hc : c.isNumber = true := hbc.isNumber_eq.symm.trans hb
  obtain ⟨p, q, hp, hq, hpq⟩ := hab.places ha
  obtain ⟨q', r, hq', hr, hqr⟩ := hbc.places hb
  obtain rfl : q = q' := Option.some.inj (hq.symm.trans hq')
  exact (atMost_iff_places ha hc mixed).mpr ⟨p, r, hp, hr, Int.le_trans hpq hqr⟩

theorem atMost_trans_of_other (hab : AtMost a b) (hbc : AtMost b c) (ha : a.isNumber = false) :
    AtMost a c := by
  have hb : b.isNumber = false := hab.isNumber_eq.symm.trans ha
  have hother : ∀ {a b : Value}, a.isNumber = false →
      (AtMost a b ↔ a.rank = b.rank ∧ (compare a b).isLE = true) := by
    intro a b ha
    rw [AtMost, relate?_of_other (by rw [ha]; rfl)]
    split <;> simp [*]
  rw [hother ha] at hab ⊢
  rw [hother hb] at hbc
  exact ⟨hab.1.trans hbc.1, compare_isLE_trans hab.2 hbc.2⟩

section Blurred

variable {x : Binary64} {i j : Int64}

/-- Rounding never turns the order of two integers round. A number between a greater and a smaller
one is therefore what both are rounded to. -/
theorem place?_of_between (hi : AtMost (.int i) (.float x)) (hj : AtMost (.float x) (.int j))
    (hlt : j < i) :
    place? (.float x) = some (Binary64.ofInt i.toInt).lineKey ∧
      place? (.float x) = some (Binary64.ofInt j.toInt).lineKey := by
  obtain ⟨p, q, hp, hq, hpq⟩ := hi.places rfl
  obtain ⟨q', r, hq', hr, hqr⟩ := hj.places rfl
  obtain rfl : q = q' := Option.some.inj (hq.symm.trans hq')
  cases hp
  cases hr
  have hle := Binary64.lineKey_ofInt_mono (Int.le_of_lt (Int64.lt_iff_toInt_lt.mp hlt))
  have hsame : q = (Binary64.ofInt i.toInt).lineKey ∧ q = (Binary64.ofInt j.toInt).lineKey := by
    omega
  exact ⟨hq.trans (congrArg some hsame.1), hq.trans (congrArg some hsame.2)⟩

theorem blurs_iff (hi : AtMost (.int i) (.float x)) (hj : AtMost (.float x) (.int j)) :
    Blurs (.float x) (.int i) (.int j) ↔ j < i := by
  constructor
  · rintro ⟨-, -, hlt⟩
    exact hlt
  · intro hlt
    obtain ⟨hxi, hxj⟩ := place?_of_between hi hj hlt
    have hgreater : relate? (.int i) (.float x) = some .eq := by
      rw [relate?_of_mixed rfl rfl rfl, hxi]
      exact congrArg some Std.compare_self
    have hsmaller : relate? (.float x) (.int j) = some .eq := by
      rw [relate?_of_mixed rfl rfl rfl, hxj]
      exact congrArg some Std.compare_self
    exact .intro hgreater hsmaller hlt

/-- Only integers of more than 53 bits are blurred, and the power of two next to those of 53. -/
theorem Blurs.large (h : Blurs (.float x) (.int i) (.int j)) :
    Binary64.exactLimit ≤ i.toInt.natAbs ∧ Binary64.exactLimit ≤ j.toInt.natAbs := by
  obtain ⟨hgreater, hsmaller, hlt⟩ := h
  have hi : AtMost (.int i) (.float x) := atMost_iff.mpr ⟨_, hgreater, rfl⟩
  have hj : AtMost (.float x) (.int j) := atMost_iff.mpr ⟨_, hsmaller, rfl⟩
  obtain ⟨hxi, hxj⟩ := place?_of_between hi hj hlt
  exact Binary64.le_natAbs_of_lineKey_eq (Int64.lt_iff_toInt_lt.mp hlt)
    (Option.some.inj (hxi.symm.trans hxj))

end Blurred

/-- The comparison is transitive unless the value between blurs the other two. -/
theorem atMost_trans_iff (hab : AtMost a b) (hbc : AtMost b c) : AtMost a c ↔ ¬ Blurs b a c := by
  cases ha : a.isNumber with
  | false =>
    refine iff_of_true (atMost_trans_of_other hab hbc ha) ?_
    rintro ⟨-, -, -⟩
    cases ha
  | true =>
    cases hmixed : a.isInt && c.isInt with
    | false =>
      refine iff_of_true (atMost_trans_of_mixed hab hbc ha hmixed) ?_
      rintro ⟨-, -, -⟩
      cases hmixed
    | true =>
      obtain ⟨hai, hci⟩ := Bool.and_eq_true_iff.mp hmixed
      obtain ⟨i, rfl⟩ := eq_of_isInt hai
      obtain ⟨j, rfl⟩ := eq_of_isInt hci
      rcases eq_of_isNumber (hab.isNumber_eq.symm.trans ha) with ⟨k, rfl⟩ | ⟨x, rfl⟩
      · have hle : i ≤ j := Int64.le_trans (atMost_int_iff.mp hab) (atMost_int_iff.mp hbc)
        refine iff_of_true (atMost_int_iff.mpr hle) ?_
        intro hblurs
        cases hblurs
      · rw [atMost_int_iff, blurs_iff hab hbc, Int64.not_lt]

end Comparison

end Value

/-! ## Constraints by bounds -/

open Value (AtMost Blurs)

namespace Constraint

variable {v bound least most : Value} {l : Label}

theorem atMost_holds_iff : (atMost l bound).holds v = true ↔ AtMost v bound := Iff.rfl

theorem atLeast_holds_iff : (atLeast l bound).holds v = true ↔ AtMost bound v :=
  Value.atMost_iff_isGE

theorem between_holds_iff :
    (between l least most).holds v = true ↔ AtMost least v ∧ AtMost v most := by
  rw [← Value.atMost_iff_isGE]
  exact Bool.and_eq_true_iff

end Constraint

/-- Wider bounds accept whatever narrower ones accept, unless the narrower bound is a floating-point
number that counts as equal to both the value and the wider bound, two integers in the wrong
order. -/
theorem bounds_transitive (l l' : Label) :
    (∀ a b c, AtMost a b → AtMost b c → (AtMost a c ↔ ¬ Blurs b a c)) ∧
    (∀ most most' v, AtMost most most' → (Constraint.atMost l most).holds v = true →
      ((Constraint.atMost l' most').holds v = true ↔ ¬ Blurs most v most')) ∧
    (∀ least least' v, AtMost least' least → (Constraint.atLeast l least).holds v = true →
      ((Constraint.atLeast l' least').holds v = true ↔ ¬ Blurs least least' v)) ∧
    (∀ least most least' most' v, AtMost least' least → AtMost most most' →
      (Constraint.between l least most).holds v = true →
      ((Constraint.between l' least' most').holds v = true ↔
        ¬ Blurs least least' v ∧ ¬ Blurs most v most')) ∧
    ∀ x i j, Blurs (.float x) (.int i) (.int j) →
      Binary64.exactLimit ≤ i.toInt.natAbs ∧ Binary64.exactLimit ≤ j.toInt.natAbs := by
  refine ⟨fun a b c => Value.atMost_trans_iff, ?_, ?_, ?_, fun x i j => Blurs.large⟩
  · intro most most' v hwider hv
    rw [Constraint.atMost_holds_iff] at hv ⊢
    exact Value.atMost_trans_iff hv hwider
  · intro least least' v hwider hv
    rw [Constraint.atLeast_holds_iff] at hv ⊢
    exact Value.atMost_trans_iff hwider hv
  · intro least most least' most' v hbelow habove hv
    rw [Constraint.between_holds_iff] at hv ⊢
    exact and_congr (Value.atMost_trans_iff hbelow hv.1) (Value.atMost_trans_iff hv.2 habove)

namespace Grid

def limit : Value := .float (.ofInt 9007199254740992)

def limitInt : Value := .int (.ofNat 9007199254740992)

def last : Value := .int (.ofNat 9007199254740991)

def beyond : Value := .int (.ofNat 9007199254740993)

end Grid

/-- The last integer of 53 bits is within the bounds given as floating-point numbers, hence also
within wider ones given as integers. -/
theorem bounds_transitive_limit :
    (Constraint.between ⟨[0]⟩ (.float .one) Grid.limit).holds Grid.last = true ∧
      (Constraint.between ⟨[1]⟩ (.int 0) Grid.limitInt).holds Grid.last = true := by
  have hnarrow : (Constraint.between ⟨[0]⟩ (.float .one) Grid.limit).holds Grid.last = true := by
    decide +kernel
  refine ⟨hnarrow, ?_⟩
  obtain ⟨-, -, -, hbetween, hlarge⟩ := bounds_transitive ⟨[0]⟩ ⟨[1]⟩
  refine (hbetween _ _ _ _ _ (by decide +kernel) (by decide +kernel) hnarrow).mpr ⟨?_, ?_⟩
  · intro hblurs
    exact absurd (hlarge _ _ _ hblurs).1 (by decide +kernel)
  · intro hblurs
    exact absurd (hlarge _ _ _ hblurs).1 (by decide +kernel)

/-- One more than the limit counts as equal to the limit, and the limit to the integer below. -/
theorem bounds_not_transitive :
    AtMost Grid.beyond Grid.limit ∧ AtMost Grid.limit Grid.limitInt ∧
      ¬ AtMost Grid.beyond Grid.limitInt ∧
      (Constraint.atMost ⟨[]⟩ Grid.limit).holds Grid.beyond = true ∧
      (Constraint.atMost ⟨[]⟩ Grid.limitInt).holds Grid.beyond = false := by
  decide +kernel

end Conformance
