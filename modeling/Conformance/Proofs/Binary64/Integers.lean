import Conformance.Binary64.Rounding
import Mathlib.Tactic.SplitIfs

/-! # Floating-point numbers nearest to integers

The nearest number never goes down when an integer goes up. Integers of at most 53 bits have numbers
of their own; beyond them neighbours may share one.
-/

namespace Conformance.Binary64

/-! ## Rounding to a natural -/

section Rounding

variable {a b : Nat}

theorem div_le_roundHalfEven (a d : Nat) : a / d ≤ roundHalfEven a d := by
  unfold roundHalfEven
  dsimp only
  split
  · exact Nat.le_refl _
  · split
    · exact Nat.le_succ _
    · exact Nat.le_add_right _ _

theorem roundHalfEven_le (a d : Nat) : roundHalfEven a d ≤ a / d + 1 := by
  have hparity : a / d % 2 < 2 := Nat.mod_lt _ (by decide)
  unfold roundHalfEven
  dsimp only
  split
  · exact Nat.le_succ _
  · split
    · exact Nat.le_refl _
    · omega

theorem roundHalfEven_one (a : Nat) : roundHalfEven a 1 = a := by
  simp [roundHalfEven, Nat.mod_one]

theorem roundHalfEven_mono (h : a ≤ b) (d : Nat) : roundHalfEven a d ≤ roundHalfEven b d := by
  have hquotients : a / d ≤ b / d := Nat.div_le_div_right h
  by_cases hsame : a / d = b / d
  · have ha := Nat.div_add_mod a d
    have hb := Nat.div_add_mod b d
    rw [hsame] at ha
    have hremainders : a % d ≤ b % d := by omega
    unfold roundHalfEven
    dsimp only
    rw [hsame]
    split_ifs <;> omega
  · have ha := roundHalfEven_le a d
    have hb := div_le_roundHalfEven b d
    omega

end Rounding

/-! ## Magnitudes -/

theorem magnitude_ofMagnitude (negative : Bool) {n : Nat} (h : n < signWeight) :
    (ofMagnitude negative n).magnitude = n := by
  have hsize : UInt64.size = 2 * signWeight := rfl
  cases negative
  · have hbits : (UInt64.ofNat n).toNat = n := UInt64.toNat_ofNat_of_lt' (by omega)
    simp only [magnitude, ofMagnitude, Bool.false_eq_true, if_false, hbits]
    exact Nat.mod_eq_of_lt h
  · have hbits : (UInt64.ofNat (signWeight + n)).toNat = signWeight + n :=
      UInt64.toNat_ofNat_of_lt' (by omega)
    simp only [magnitude, ofMagnitude, if_true, hbits]
    rw [Nat.add_mod_left, Nat.mod_eq_of_lt h]

theorem isNegative_ofMagnitude (negative : Bool) {n : Nat} (h : n < signWeight) :
    (ofMagnitude negative n).isNegative = negative := by
  have hsize : UInt64.size = 2 * signWeight := rfl
  cases negative
  · have hbits : (UInt64.ofNat n).toNat = n := UInt64.toNat_ofNat_of_lt' (by omega)
    simp only [isNegative, ofMagnitude, Bool.false_eq_true, if_false, hbits,
      decide_eq_false_iff_not]
    omega
  · have hbits : (UInt64.ofNat (signWeight + n)).toNat = signWeight + n :=
      UInt64.toNat_ofNat_of_lt' (by omega)
    simp only [isNegative, ofMagnitude, if_true, hbits, decide_eq_true_eq]
    omega

def naturalMagnitude (n : Nat) : Nat :=
  if n = 0 then 0
  else min infinityMagnitude ((n.log2 + 1022) * exponentWeight + double.count n 1)

/-- The first natural of more bits than a significand has. -/
def exactLimit : Nat := 0x20000000000000

section Naturals

variable {n m : Nat}

theorem binaryExponent_natural (hn : n ≠ 0) : binaryExponent n 1 = n.log2 := by
  have hlog : Nat.log2 1 = 0 := by decide
  have hle : 1 <<< n.log2 ≤ n := by
    rw [Nat.one_shiftLeft]
    exact Nat.log2_self_le hn
  simp only [binaryExponent, hlog]
  rw [if_pos]
  · omega
  · simpa using hle

theorem unit_natural (hn : n ≠ 0) : double.unit n 1 = n.log2 - 52 := by
  simp only [Format.unit, binaryExponent_natural hn, double]
  omega

theorem ofRatio_natural (negative : Bool) (n : Nat) :
    ofRatio negative n 1 = ofMagnitude negative (naturalMagnitude n) := by
  by_cases hn : n = 0
  · rw [ofRatio, naturalMagnitude, if_pos hn, if_pos hn]
  · have hfield : (double.unit n 1 + 1074).toNat = n.log2 + 1022 := by
      rw [unit_natural hn]
      omega
    rw [ofRatio, naturalMagnitude, if_neg hn, if_neg hn]
    dsimp only
    rw [hfield]

/-- Naturals of at most 53 bits are counted exactly. -/
theorem count_of_log2_le (hn : n ≠ 0) (hlog : n.log2 ≤ 52) :
    double.count n 1 = n <<< (52 - n.log2) := by
  have hdown : ((n.log2 : Int) - 52).toNat = 0 := by omega
  have hup : (-((n.log2 : Int) - 52)).toNat = 52 - n.log2 := by omega
  simp only [Format.count, unit_natural hn, hdown, hup]
  rw [Nat.shiftLeft_zero, roundHalfEven_one]

theorem count_of_le_log2 (hn : n ≠ 0) (hlog : 52 ≤ n.log2) :
    double.count n 1 = roundHalfEven n (1 <<< (n.log2 - 52)) := by
  have hdown : ((n.log2 : Int) - 52).toNat = n.log2 - 52 := by omega
  have hup : (-((n.log2 : Int) - 52)).toNat = 0 := by omega
  simp only [Format.count, unit_natural hn, hdown, hup]
  rw [Nat.shiftLeft_zero]

/-- Shifted up, the leading bit of a natural is that of a significand. -/
theorem shiftLeft_bounds (hn : n ≠ 0) (hlog : n.log2 ≤ 52) :
    exponentWeight ≤ n <<< (52 - n.log2) ∧ n <<< (52 - n.log2) < exactLimit := by
  have hlow : 2 ^ n.log2 ≤ n := Nat.log2_self_le hn
  have hhigh : n < 2 ^ (n.log2 + 1) := Nat.lt_log2_self
  have hpos : 0 < 2 ^ (52 - n.log2) := Nat.two_pow_pos _
  rw [Nat.shiftLeft_eq]
  constructor
  · calc exponentWeight = 2 ^ (n.log2 + (52 - n.log2)) := by rw [Nat.add_sub_cancel' hlog]; rfl
      _ = 2 ^ n.log2 * 2 ^ (52 - n.log2) := Nat.pow_add ..
      _ ≤ n * 2 ^ (52 - n.log2) := Nat.mul_le_mul_right _ hlow
  · have hexponent : n.log2 + 1 + (52 - n.log2) = 53 := by omega
    calc n * 2 ^ (52 - n.log2) < 2 ^ (n.log2 + 1) * 2 ^ (52 - n.log2) :=
          Nat.mul_lt_mul_of_pos_right hhigh hpos
      _ = 2 ^ (n.log2 + 1 + (52 - n.log2)) := (Nat.pow_add ..).symm
      _ = exactLimit := by rw [hexponent]; rfl

/-- Divided down, the leading bit of a natural is that of a significand. -/
theorem div_bounds (hn : n ≠ 0) (hlog : 52 ≤ n.log2) :
    exponentWeight ≤ n / (1 <<< (n.log2 - 52)) ∧ n / (1 <<< (n.log2 - 52)) < exactLimit := by
  have hlow : 2 ^ n.log2 ≤ n := Nat.log2_self_le hn
  have hhigh : n < 2 ^ (n.log2 + 1) := Nat.lt_log2_self
  have hpos : 0 < 2 ^ (n.log2 - 52) := Nat.two_pow_pos _
  rw [Nat.one_shiftLeft]
  constructor
  · rw [Nat.le_div_iff_mul_le hpos]
    calc exponentWeight * 2 ^ (n.log2 - 52) = 2 ^ (52 + (n.log2 - 52)) := by
          rw [Nat.pow_add]
          rfl
      _ = 2 ^ n.log2 := by rw [Nat.add_sub_cancel' hlog]
      _ ≤ n := hlow
  · have hexponent : n.log2 + 1 = 53 + (n.log2 - 52) := by omega
    rw [Nat.div_lt_iff_lt_mul hpos]
    calc n < 2 ^ (n.log2 + 1) := hhigh
      _ = 2 ^ (53 + (n.log2 - 52)) := by rw [hexponent]
      _ = exactLimit * 2 ^ (n.log2 - 52) := by
          rw [Nat.pow_add]
          rfl

/-- A count is a significand with its leading bit, or the next power of two. -/
theorem count_bounds (hn : n ≠ 0) :
    exponentWeight ≤ double.count n 1 ∧ double.count n 1 ≤ exactLimit := by
  rcases Nat.le_total n.log2 52 with hlog | hlog
  · have hshift := shiftLeft_bounds hn hlog
    rw [count_of_log2_le hn hlog]
    exact ⟨hshift.1, Nat.le_of_lt hshift.2⟩
  · have hdiv := div_bounds hn hlog
    have hup := div_le_roundHalfEven n (1 <<< (n.log2 - 52))
    have hround := roundHalfEven_le n (1 <<< (n.log2 - 52))
    rw [count_of_le_log2 hn hlog]
    omega

theorem count_mono (hn : n ≠ 0) (h : n ≤ m) (hlog : n.log2 = m.log2) :
    double.count n 1 ≤ double.count m 1 := by
  have hm : m ≠ 0 := by omega
  rcases Nat.le_total n.log2 52 with hsmall | hlarge
  · rw [count_of_log2_le hn hsmall, count_of_log2_le hm (hlog ▸ hsmall), hlog, Nat.shiftLeft_eq,
      Nat.shiftLeft_eq]
    exact Nat.mul_le_mul_right _ h
  · rw [count_of_le_log2 hn hlarge, count_of_le_log2 hm (hlog ▸ hlarge), hlog]
    exact roundHalfEven_mono h _

theorem log2_mono (hn : n ≠ 0) (h : n ≤ m) : n.log2 ≤ m.log2 := by
  rw [Nat.le_log2 (by omega)]
  exact Nat.le_trans (Nat.log2_self_le hn) h

theorem naturalMagnitude_le (n : Nat) : naturalMagnitude n ≤ infinityMagnitude := by
  unfold naturalMagnitude
  split
  · exact Nat.zero_le _
  · exact Nat.min_le_left _ _

theorem naturalMagnitude_mono (h : n ≤ m) : naturalMagnitude n ≤ naturalMagnitude m := by
  by_cases hn : n = 0
  · rw [naturalMagnitude, if_pos hn]
    exact Nat.zero_le _
  have hm : m ≠ 0 := by omega
  have hcounts : (n.log2 + 1022) * exponentWeight + double.count n 1 ≤
      (m.log2 + 1022) * exponentWeight + double.count m 1 := by
    rcases Nat.eq_or_lt_of_le (log2_mono hn h) with hlog | hlog
    · have hcount := count_mono hn h hlog
      rw [hlog]
      omega
    · -- The count of `n` ends at most where the counts of the next exponent begin.
      have hhigh := (count_bounds hn).2
      have hlow := (count_bounds hm).1
      unfold exponentWeight exactLimit at *
      omega
  rw [naturalMagnitude, naturalMagnitude, if_neg hn, if_neg hm]
  omega

/-- The naturals up to `exactLimit` are exact, so that their numbers differ. -/
theorem naturalMagnitude_lt (h : n < m) (hm : m ≤ exactLimit) :
    naturalMagnitude n < naturalMagnitude m := by
  have hm₀ : m ≠ 0 := by omega
  have hlogm : m.log2 < 54 := (Nat.log2_lt hm₀).mpr (Nat.lt_of_le_of_lt hm (by decide))
  have hcountm := count_bounds hm₀
  rw [naturalMagnitude, naturalMagnitude, if_neg hm₀]
  by_cases hn : n = 0
  · rw [if_pos hn]
    unfold infinityMagnitude exponentWeight at *
    omega
  · have hlogn : n.log2 < 53 := (Nat.log2_lt hn).mpr (Nat.lt_of_lt_of_le h hm)
    have hcountn := shiftLeft_bounds hn (by omega)
    rw [if_neg hn, count_of_log2_le hn (by omega)]
    have hcounts : (n.log2 + 1022) * exponentWeight + n <<< (52 - n.log2) <
        (m.log2 + 1022) * exponentWeight + double.count m 1 := by
      rcases Nat.eq_or_lt_of_le (log2_mono hn (Nat.le_of_lt h)) with hlog | hlog
      · have hcount : n <<< (52 - m.log2) < m <<< (52 - m.log2) := by
          rw [Nat.shiftLeft_eq, Nat.shiftLeft_eq]
          exact Nat.mul_lt_mul_of_pos_right h (Nat.two_pow_pos _)
        rw [hlog, count_of_log2_le hm₀ (by omega)]
        omega
      · unfold exponentWeight exactLimit at *
        omega
    unfold infinityMagnitude exponentWeight exactLimit at *
    omega

end Naturals

/-! ## Integers -/

section Integers

variable {i j : Int}

theorem infinityMagnitude_lt : infinityMagnitude < signWeight := by decide

theorem magnitude_ofInt (i : Int) : (ofInt i).magnitude = naturalMagnitude i.natAbs := by
  rw [ofInt, ofRatio_natural]
  exact magnitude_ofMagnitude _
    (Nat.lt_of_le_of_lt (naturalMagnitude_le _) infinityMagnitude_lt)

theorem isNaN_ofInt (i : Int) : (ofInt i).isNaN = false := by
  have hle : naturalMagnitude i.natAbs ≤ infinityMagnitude := naturalMagnitude_le _
  rw [isNaN, magnitude_ofInt]
  exact decide_eq_false (Nat.not_lt.mpr hle)

theorem lineKey_ofInt (i : Int) :
    (ofInt i).lineKey =
      if i < 0 then -(naturalMagnitude i.natAbs : Int) else naturalMagnitude i.natAbs := by
  have hnegative : (ofInt i).isNegative = decide (i < 0) := by
    rw [ofInt, ofRatio_natural]
    exact isNegative_ofMagnitude _
      (Nat.lt_of_le_of_lt (naturalMagnitude_le _) infinityMagnitude_lt)
  simp only [lineKey, hnegative, magnitude_ofInt, decide_eq_true_eq]

theorem lineKey_ofInt_mono (h : i ≤ j) : (ofInt i).lineKey ≤ (ofInt j).lineKey := by
  rw [lineKey_ofInt, lineKey_ofInt]
  by_cases hi : i < 0
  · by_cases hj : j < 0
    · have hmagnitudes : naturalMagnitude j.natAbs ≤ naturalMagnitude i.natAbs :=
        naturalMagnitude_mono (by omega)
      rw [if_pos hi, if_pos hj]
      omega
    · rw [if_pos hi, if_neg hj]
      omega
  · have hmagnitudes : naturalMagnitude i.natAbs ≤ naturalMagnitude j.natAbs :=
      naturalMagnitude_mono (by omega)
    rw [if_neg hi, if_neg (by omega)]
    omega

/-- Integers up to `exactLimit` keep their order strictly. -/
theorem lineKey_ofInt_lt (hi : i.natAbs ≤ exactLimit) (hj : j.natAbs ≤ exactLimit) (h : i < j) :
    (ofInt i).lineKey < (ofInt j).lineKey := by
  have hzero : naturalMagnitude 0 = 0 := rfl
  rw [lineKey_ofInt, lineKey_ofInt]
  by_cases hneg : i < 0
  · have hpos : naturalMagnitude 0 < naturalMagnitude i.natAbs :=
      naturalMagnitude_lt (by omega) hi
    by_cases hj0 : j < 0
    · have hmagnitudes : naturalMagnitude j.natAbs < naturalMagnitude i.natAbs :=
        naturalMagnitude_lt (by omega) hi
      rw [if_pos hneg, if_pos hj0]
      omega
    · rw [if_pos hneg, if_neg hj0]
      omega
  · have hmagnitudes : naturalMagnitude i.natAbs < naturalMagnitude j.natAbs :=
      naturalMagnitude_lt (by omega) hj
    rw [if_neg hneg, if_neg (by omega)]
    omega

/-- Two integers with one nearest number are both beyond what is exact. -/
theorem le_natAbs_of_lineKey_eq (h : j < i) (heq : (ofInt i).lineKey = (ofInt j).lineKey) :
    exactLimit ≤ i.natAbs ∧ exactLimit ≤ j.natAbs := by
  have hbetween : ∀ k, j ≤ k → k ≤ i → (ofInt k).lineKey = (ofInt i).lineKey := by
    intro k hjk hki
    have hlow := lineKey_ofInt_mono hjk
    have hhigh := lineKey_ofInt_mono hki
    omega
  constructor
  · refine Nat.le_of_not_lt fun hi => ?_
    -- The integer just below `i` has the same nearest number.
    have hlt := @lineKey_ofInt_lt (i - 1) i (by omega) (by omega) (by omega)
    have hsame := hbetween (i - 1) (by omega) (by omega)
    omega
  · refine Nat.le_of_not_lt fun hj => ?_
    have hlt := @lineKey_ofInt_lt j (j + 1) (by omega) (by omega) (by omega)
    have hsame := hbetween (j + 1) (by omega) (by omega)
    omega

end Integers

end Conformance.Binary64
