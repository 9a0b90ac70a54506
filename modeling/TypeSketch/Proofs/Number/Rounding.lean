import Mathlib.Algebra.Order.Group.Nat
import Mathlib.Tactic.Ring
import TypeSketch.Number.Binary64

/-!
# Binary floating numbers of 64 bits — whole numbers

A whole number of at most 53 bits is a floating number itself (`ofRatio_of_small`), and one of more
bits is rounded to no less than `2^53` (`ofRatio_of_large`).  So rounding a whole number does not
change on which side of a small one it lies (`atLeast_ofInt`).

Rounding divides by a power of two and takes the nearer neighbour, an even one in the middle. All
that is needed of it here is that it does not fall below the quotient (`div_le_roundHalfEven`) and
leaves a whole number in place (`roundHalfEven_one`). The scale is read off the length of the number
in bits (`exponentOf_whole`), so the two cases are those of 53 bits at most, where nothing is lost,
and of more, where the number stays at least `2^53`.
-/

namespace TypeSketch.Binary64

variable {n : Nat}

theorem div_le_roundHalfEven (num den : Nat) : num / den ≤ roundHalfEven num den := by
  simp only [roundHalfEven]
  split
  · exact Nat.le_succ _
  · exact Nat.le_refl _

theorem roundHalfEven_one (num : Nat) : roundHalfEven num 1 = num := by
  simp [roundHalfEven, Nat.mod_one]

/-! ### Whole numbers as 53 bits and an exponent -/

/-- A number of at most 53 bits is scaled up to 53 bits. -/
theorem scaleDown_of_small (h : n.log2 ≤ 52) :
    scaleDown n 1 ((n.log2 : Int) - 52) = (n * 2 ^ (52 - n.log2), 1) := by
  rcases Nat.lt_or_eq_of_le h with h | h
  · have hneg : ¬ ((n.log2 : Int) - 52 ≥ 0) := by omega
    have hexp : (-((n.log2 : Int) - 52)).toNat = 52 - n.log2 := by omega
    rw [scaleDown, if_neg hneg, hexp, Nat.pow_eq]
  · simp [scaleDown, h]

theorem scaleDown_of_large (h : 52 ≤ n.log2) :
    scaleDown n 1 ((n.log2 : Int) - 52) = (n, 2 ^ (n.log2 - 52)) := by
  have hpos : (n.log2 : Int) - 52 ≥ 0 := by omega
  have hexp : ((n.log2 : Int) - 52).toNat = n.log2 - 52 := by omega
  rw [scaleDown, if_pos hpos, hexp, Nat.pow_eq, Nat.one_mul]

/-- Scaled by the least exponent, a whole number has all of 53 bits. -/
theorem le_scaleDown (hn : n ≠ 0) :
    2 ^ 52 ≤ (scaleDown n 1 ((n.log2 : Int) - 52)).1 / (scaleDown n 1 ((n.log2 : Int) - 52)).2 := by
  have hlog : 2 ^ n.log2 ≤ n := Nat.log2_self_le hn
  rcases Nat.le_total n.log2 52 with h | h
  · rw [scaleDown_of_small h]
    calc 2 ^ 52
      _ = 2 ^ n.log2 * 2 ^ (52 - n.log2) := by rw [← Nat.pow_add, Nat.add_sub_cancel' h]
      _ ≤ n * 2 ^ (52 - n.log2) := Nat.mul_le_mul_right _ hlog
      _ = n * 2 ^ (52 - n.log2) / 1 := (Nat.div_one _).symm
  · rw [scaleDown_of_large h, Nat.le_div_iff_mul_le (Nat.two_pow_pos _), ← Nat.pow_add,
      Nat.add_sub_cancel' h]
    exact hlog

/-- The exponent of a whole number is told by its length in bits. -/
theorem exponentOf_whole (hn : n ≠ 0) : exponentOf n 1 = (n.log2 : Int) - 52 := by
  have hone : Nat.log2 1 = 0 := rfl
  have hscale : ((n.log2 : Int) - (Nat.log2 1 : Nat) - 52) = (n.log2 : Int) - 52 := by
    rw [hone]
    omega
  have hbits := le_scaleDown hn
  rw [← Nat.pow_eq] at hbits
  simp only [exponentOf, hscale]
  rw [if_neg (Nat.not_lt.mpr hbits)]
  omega

/-- A whole number of at most 53 bits is not rounded. -/
theorem ofRatio_of_small (negative : Bool) (hn : n ≠ 0) (h : n.log2 ≤ 52) :
    ofRatio negative n 1 = .finite negative (n * 2 ^ (52 - n.log2)) ((n.log2 : Int) - 52) := by
  have hlt : n * 2 ^ (52 - n.log2) < 2 ^ 53 := by
    calc n * 2 ^ (52 - n.log2)
      _ < 2 ^ (n.log2 + 1) * 2 ^ (52 - n.log2) :=
        Nat.mul_lt_mul_of_pos_right Nat.lt_log2_self (Nat.two_pow_pos _)
      _ = 2 ^ 53 := by rw [← Nat.pow_add]; congr 1; omega
  have hround : n * 2 ^ (52 - n.log2) ≠ Nat.pow 2 53 := by
    rw [Nat.pow_eq]
    exact Nat.ne_of_lt hlt
  have hsmall : ¬ ((n.log2 : Int) - 52 > 971) := by omega
  simp only [ofRatio, if_neg hn, exponentOf_whole hn, scaleDown_of_small h, roundHalfEven_one,
    if_neg hround, if_neg hsmall]

/-- A whole number of more bits is at least `2^53`, rounded too. -/
theorem ofRatio_of_large (negative : Bool) (h : 53 ≤ n.log2) :
    ofRatio negative n 1 = .infinite negative ∨
      ∃ m e, ofRatio negative n 1 = .finite negative m e ∧ 2 ^ 52 ≤ m ∧ 1 ≤ e := by
  have hn : n ≠ 0 := by
    rintro rfl
    exact absurd h (by decide)
  have hbits := Nat.le_trans (le_scaleDown hn) (div_le_roundHalfEven _ _)
  simp only [ofRatio, if_neg hn, exponentOf_whole hn]
  generalize roundHalfEven _ _ = m at hbits
  split
  · split
    · exact .inl rfl
    · exact .inr ⟨_, _, rfl, Nat.le_of_eq Nat.pow_eq.symm, by omega⟩
  · split
    · exact .inl rfl
    · exact .inr ⟨_, _, rfl, hbits, by omega⟩

/-- A whole number of at most 1023 bits is not rounded to an infinity. -/
theorem isFinite_ofInt {i : Int} (h : i.natAbs.log2 ≤ 1022) : (ofInt i).isFinite = true := by
  by_cases hn : i.natAbs = 0
  · rw [ofInt, ofRatio, if_pos hn]
    rfl
  simp only [ofInt, ofRatio, if_neg hn, exponentOf_whole hn]
  generalize roundHalfEven _ _ = m
  -- the carry of rounding up adds one to the exponent at most
  split
  · rw [if_neg (by omega)]
    rfl
  · rw [if_neg (by omega)]
    rfl

/-! ### Comparing whole numbers -/

/-- A quotient is rounded to an infinity or to a finite number, with its sign. -/
theorem ofRatio_cases (negative : Bool) (num den : Nat) :
    ofRatio negative num den = .infinite negative ∨
      ∃ m e, ofRatio negative num den = .finite negative m e := by
  unfold ofRatio
  split
  · exact .inr ⟨_, _, rfl⟩
  · dsimp only
    split
    all_goals
      dsimp only
      split
      · exact .inl rfl
      · exact .inr ⟨_, _, rfl⟩

/-- How many units make one. -/
def unitsOfOne : Int := (Nat.pow 2 1074 : Nat)

theorem unitsOfOne_pos : 0 < unitsOfOne :=
  Int.natCast_pos.mpr (Nat.pow_pos (by decide))

theorem units_true_nonpos (m : Nat) (e : Int) : units true m e ≤ 0 :=
  Int.neg_nonpos_of_nonneg (Int.natCast_nonneg _)

theorem atLeast_finite (negative : Bool) (m : Nat) (e k : Int) :
    (finite negative m e).atLeast k = decide (k * unitsOfOne ≤ units negative m e) := rfl

/-- A number of negative sign is not above zero. -/
theorem not_atLeast_of_negative {k : Int} (hk : 0 < k) (num den : Nat) :
    (ofRatio true num den).atLeast k = false := by
  rcases ofRatio_cases true num den with h | ⟨m, e, h⟩
  · rw [h]
    rfl
  · have hunits : 0 < k * unitsOfOne := Int.mul_pos hk unitsOfOne_pos
    rw [h, atLeast_finite, decide_eq_false_iff_not]
    exact Int.not_le.mpr (Int.lt_of_le_of_lt (units_true_nonpos m e) hunits)

theorem natPow_add {a b c : Nat} (h : a + b = c) : Nat.pow 2 a * Nat.pow 2 b = Nat.pow 2 c := by
  rw [Nat.pow_eq, Nat.pow_eq, Nat.pow_eq, ← Nat.pow_add, h]

/-- A whole number of at most 53 bits counts itself in units. -/
theorem units_of_small (h : n.log2 ≤ 52) :
    units false (n * 2 ^ (52 - n.log2)) ((n.log2 : Int) - 52) = n * unitsOfOne := by
  have hexp : ((n.log2 : Int) - 52 + 1074).toNat = n.log2 + 1022 := by omega
  have hpow : Nat.pow 2 (52 - n.log2) * Nat.pow 2 (n.log2 + 1022) = Nat.pow 2 1074 :=
    natPow_add (by omega)
  rw [units, if_neg Bool.false_ne_true, hexp, ← Nat.pow_eq, Nat.mul_assoc, hpow, Int.natCast_mul,
    unitsOfOne]

/-- A number with 53 bits and an exponent above zero is at least `2^53`. -/
theorem le_units {m : Nat} {e : Int} (hm : 2 ^ 52 ≤ m) (he : 1 ≤ e) :
    (2 ^ 53 : Nat) * unitsOfOne ≤ units false m e := by
  obtain ⟨d, hd⟩ : ∃ d, (e + 1074).toNat = 1 + d + 1074 := ⟨(e + 1074).toNat - 1075, by omega⟩
  have hpow : Nat.pow 2 (1 + d) * Nat.pow 2 1074 = Nat.pow 2 (1 + d + 1074) := natPow_add rfl
  have hle : 2 ^ 53 ≤ m * Nat.pow 2 (1 + d) := by
    calc 2 ^ 53
      _ = 2 ^ 52 * Nat.pow 2 1 := rfl
      _ ≤ m * Nat.pow 2 (1 + d) :=
        Nat.mul_le_mul hm (Nat.pow_le_pow_right (by decide) (Nat.le_add_right 1 d))
  rw [units, if_neg Bool.false_ne_true, hd, ← hpow, ← Nat.mul_assoc, Int.natCast_mul]
  exact Int.mul_le_mul_of_nonneg_right (Int.ofNat_le.mpr hle) (Int.le_of_lt unitsOfOne_pos)

/-- Rounding does not carry a whole number over a small one. -/
theorem atLeast_ofInt {k : Int} (hk : 0 < k) (hsmall : k ≤ (2 ^ 53 : Nat)) (i : Int) :
    (ofInt i).atLeast k = decide (k ≤ i) := by
  rcases Int.lt_or_le i 0 with hi | hi
  · have hlt : ¬ k ≤ i := by omega
    rw [ofInt, decide_eq_true hi, not_atLeast_of_negative hk, decide_eq_false hlt]
  obtain ⟨n, rfl⟩ := Int.eq_ofNat_of_zero_le hi
  rw [ofInt, decide_eq_false (Int.not_lt.mpr hi), Int.natAbs_natCast]
  rcases Nat.lt_or_ge 52 n.log2 with h | h
  · have hn : 2 ^ 53 ≤ n := Nat.le_trans (Nat.pow_le_pow_right (by decide) h)
      (Nat.log2_self_le (by rintro rfl; exact absurd h (by decide)))
    rw [decide_eq_true (Int.le_trans hsmall (Int.ofNat_le.mpr hn))]
    rcases ofRatio_of_large false h with h | ⟨m, e, h, hm, he⟩
    · rw [h]
      rfl
    · rw [h, atLeast_finite, decide_eq_true_iff]
      calc k * unitsOfOne
        _ ≤ (2 ^ 53 : Nat) * unitsOfOne :=
          Int.mul_le_mul_of_nonneg_right hsmall (Int.le_of_lt unitsOfOne_pos)
        _ ≤ units false m e := le_units hm he
  · rcases Nat.eq_zero_or_pos n with rfl | hn
    · have hzero : units false 0 (-1074) = 0 * unitsOfOne := by
        rw [units, Nat.zero_mul, Int.zero_mul]
        rfl
      rw [ofRatio, if_pos rfl, zero, atLeast_finite, hzero]
      exact decide_eq_decide.mpr (Int.mul_le_mul_right unitsOfOne_pos)
    · rw [ofRatio_of_small false (Nat.ne_of_gt hn) h, atLeast_finite, units_of_small h]
      exact decide_eq_decide.mpr (Int.mul_le_mul_right unitsOfOne_pos)

end TypeSketch.Binary64
