import Mathlib.Algebra.Order.Field.Power
import Mathlib.Data.Nat.Log
import Mathlib.Data.Rat.Cast.Order
import Mathlib.Tactic.FieldSimp
import Mathlib.Tactic.Linarith
import Mathlib.Tactic.Ring
import ProseLint.Number.Binary64

/-! Rounding keeps order. The exponent of a quotient is the one with which its mantissa has 53 bits,
and the mantissa is the nearest whole number. A greater quotient has no smaller exponent, and with
the same exponent no smaller mantissa, so it becomes no smaller number. -/

namespace ProseLint.Binary64

/-! ## Whole numbers -/

theorem roundDiv_eq (num den : Nat) :
    roundDiv num den = num / den ∧ 2 * (num % den) ≤ den ∧
      (2 * (num % den) = den → num / den % 2 = 0) ∨
    roundDiv num den = num / den + 1 ∧ den ≤ 2 * (num % den) ∧
      (2 * (num % den) = den → num / den % 2 = 1) := by
  unfold roundDiv
  grind

theorem le_roundDiv (num den : Nat) : num / den ≤ roundDiv num den := by
  rcases roundDiv_eq num den with ⟨h, _⟩ | ⟨h, _⟩ <;> omega

theorem roundDiv_le (num den : Nat) : roundDiv num den ≤ num / den + 1 := by
  rcases roundDiv_eq num den with ⟨h, _⟩ | ⟨h, _⟩ <;> omega

/-- Rounding to whole numbers keeps the order of quotients. -/
theorem roundDiv_mono {num den num' den' : Nat} (hDen : 0 < den) (hDen' : 0 < den')
    (hLe : num * den' ≤ num' * den) : roundDiv num den ≤ roundDiv num' den' := by
  have hFloor : num / den ≤ num' / den' := by
    rw [Nat.le_div_iff_mul_le hDen']
    refine Nat.le_of_mul_le_mul_right ?_ hDen
    calc num / den * den' * den = num / den * den * den' := Nat.mul_right_comm _ _ _
      _ ≤ num * den' := Nat.mul_le_mul_right den' (Nat.div_mul_le_self num den)
      _ ≤ num' * den := hLe
  rcases Nat.eq_or_lt_of_le hFloor with hSame | hLess
  · have hRest : num % den * den' ≤ num' % den' * den := by
      have hNum := congrArg (· * den') (Nat.div_add_mod num den)
      have hNum' := congrArg (· * den) (Nat.div_add_mod num' den')
      simp only [hSame, Nat.add_mul, Nat.mul_right_comm den'] at hNum hNum'
      rw [Nat.mul_right_comm, Nat.mul_comm den den'] at hNum
      omega
    rcases roundDiv_eq num den with ⟨hDown, _⟩ | ⟨hUp, hHalf, hOdd⟩
    · rw [hDown, hSame]
      exact le_roundDiv num' den'
    · have hHalf' : den' ≤ 2 * (num' % den') := by nlinarith
      rcases roundDiv_eq num' den' with ⟨_, hBelow, hEven⟩ | ⟨hUp', _⟩
      · -- Both are halves, and they have one even neighbour.
        have hTie' : 2 * (num' % den') = den' := Nat.le_antisymm hBelow hHalf'
        have hTie : 2 * (num % den) = den := Nat.le_antisymm (by nlinarith) hHalf
        have hParity := hOdd hTie
        rw [hSame, hEven hTie'] at hParity
        cases hParity
      · rw [hUp, hUp', hSame]
  · exact (roundDiv_le num den).trans (hLess.trans_le (le_roundDiv num' den'))

theorem roundDiv_zero (den : Nat) : roundDiv 0 den = 0 := by
  simp [roundDiv]

theorem roundDiv_one (n : Nat) : roundDiv n 1 = n := by
  simp [roundDiv, Nat.mod_one]

/-! ## Exponents -/

theorem twoTo_eq (k : Nat) : twoTo k = 2 ^ k := rfl

/-- Scaling divides the quotient by a power of two. -/
theorem scaleDown_eq (num : Nat) {den : Nat} (hDen : 0 < den) (e : Int) :
    0 < (scaleDown num den e).2 ∧
      ((scaleDown num den e).1 : ℚ) / (scaleDown num den e).2 = (num : ℚ) / den / 2 ^ e := by
  have hPower : ∀ k, 0 < twoTo k := fun k => Nat.pow_pos (by decide)
  unfold scaleDown
  split
  · next hPos =>
      refine ⟨Nat.mul_pos hDen (hPower _), ?_⟩
      obtain ⟨k, rfl⟩ := Int.eq_ofNat_of_zero_le hPos
      simp only [Int.toNat_natCast, Nat.cast_mul, twoTo_eq, Nat.cast_pow, zpow_natCast]
      rw [div_div]
      rfl
  · next hNeg =>
      refine ⟨hDen, ?_⟩
      obtain ⟨k, hk⟩ := Int.eq_ofNat_of_zero_le (show 0 ≤ -e by omega)
      obtain rfl : e = -(k : Int) := by omega
      simp only [neg_neg, Int.toNat_natCast, Nat.cast_mul, twoTo_eq, Nat.cast_pow, zpow_neg,
        zpow_natCast, div_inv_eq_mul]
      rw [mul_div_right_comm]
      rfl

/-- The lengths in binary give the size of a quotient up to a factor of four. -/
theorem log2_bounds {num den : Nat} (hNum : 0 < num) (hDen : 0 < den) :
    (2 : ℚ) ^ ((num.log2 : Int) - den.log2 - 1) ≤ (num : ℚ) / den ∧
      (num : ℚ) / den < 2 ^ ((num.log2 : Int) - den.log2 + 1) := by
  have hDen' : (0 : ℚ) < den := by exact_mod_cast hDen
  have hLower : ∀ {n : Nat}, 0 < n → (2 : ℚ) ^ (n.log2 : Int) ≤ n := fun {n} hn => by
    rw [zpow_natCast]
    exact_mod_cast Nat.log2_self_le (Nat.ne_of_gt hn)
  have hUpper : ∀ n : Nat, (n : ℚ) < 2 ^ ((n.log2 : Int) + 1) := fun n => by
    rw [← Nat.cast_succ, zpow_natCast]
    exact_mod_cast Nat.lt_log2_self
  constructor
  · rw [le_div_iff₀ hDen']
    calc (2 : ℚ) ^ ((num.log2 : Int) - den.log2 - 1) * den
        ≤ 2 ^ ((num.log2 : Int) - den.log2 - 1) * 2 ^ ((den.log2 : Int) + 1) := by
          gcongr
          exact (hUpper den).le
      _ = 2 ^ (num.log2 : Int) := by
          rw [← zpow_add₀ (by norm_num)]
          congr 1
          ring
      _ ≤ num := hLower hNum
  · rw [div_lt_iff₀ hDen']
    calc (num : ℚ) < 2 ^ ((num.log2 : Int) + 1) := hUpper num
      _ = 2 ^ ((num.log2 : Int) - den.log2 + 1) * 2 ^ (den.log2 : Int) := by
          rw [← zpow_add₀ (by norm_num)]
          congr 1
          ring
      _ ≤ 2 ^ ((num.log2 : Int) - den.log2 + 1) * den := by
          gcongr
          exact hLower hDen

/-- With its exponent a quotient has a mantissa of 53 bits, or fewer if the exponent is the least
one. -/
theorem exponentOf_spec {num den : Nat} (hNum : 0 < num) (hDen : 0 < den) :
    -1074 ≤ exponentOf num den ∧ (num : ℚ) / den < 2 ^ (53 + exponentOf num den) ∧
      (exponentOf num den = -1074 ∨ (2 : ℚ) ^ (52 + exponentOf num den) ≤ (num : ℚ) / den) := by
  obtain ⟨hLower, hUpper⟩ := log2_bounds hNum hDen
  have hExact : ∃ e : Int, exponentOf num den = max e (-1074) ∧
      (2 : ℚ) ^ (52 + e) ≤ (num : ℚ) / den ∧ (num : ℚ) / den < 2 ^ (53 + e) := by
    unfold exponentOf
    set guess : Int := (num.log2 : Int) - den.log2 - 52 with hGuess
    obtain ⟨hPos, hScaled⟩ := scaleDown_eq num hDen guess
    have hShort : (scaleDown num den guess).1 / (scaleDown num den guess).2 < twoTo 52 ↔
        (num : ℚ) / den < 2 ^ (52 + guess) := by
      have hPos' : (0 : ℚ) < (scaleDown num den guess).2 := by exact_mod_cast hPos
      rw [Nat.div_lt_iff_lt_mul hPos, zpow_add₀ (by norm_num), ← div_lt_iff₀ (by positivity),
        ← hScaled, div_lt_iff₀ hPos', twoTo_eq]
      exact_mod_cast Iff.rfl
    simp only [hShort]
    -- The guess is right or one too great, and the size of its mantissa tells which.
    split
    · next hLess =>
        refine ⟨guess - 1, rfl, ?_, ?_⟩
        · rwa [show 52 + (guess - 1) = (num.log2 : Int) - den.log2 - 1 by omega]
        · rwa [show 53 + (guess - 1) = 52 + guess by omega]
    · next hMore =>
        refine ⟨guess, rfl, not_lt.mp hMore, ?_⟩
        rwa [show 53 + guess = (num.log2 : Int) - den.log2 + 1 by omega]
  obtain ⟨e, hMax, hFrom, hTo⟩ := hExact
  rw [hMax]
  refine ⟨le_max_right _ _, hTo.trans_le ?_, ?_⟩
  · exact zpow_le_zpow_right₀ (by norm_num) (Int.add_le_add_left (le_max_left _ _) _)
  · rcases max_choice e (-1074) with hSame | hLeast
    · exact Or.inr (by rwa [hSame])
    · exact Or.inl hLeast

/-- A greater quotient has no smaller exponent. -/
theorem exponentOf_mono {num den num' den' : Nat} (hNum : 0 < num) (hNum' : 0 < num')
    (hDen : 0 < den) (hDen' : 0 < den') (hLe : (num : ℚ) / den ≤ (num' : ℚ) / den') :
    exponentOf num den ≤ exponentOf num' den' := by
  obtain ⟨_, _, hLeast | hFrom⟩ := exponentOf_spec hNum hDen
  · rw [hLeast]
    exact (exponentOf_spec hNum' hDen').1
  · have hPowers := (hFrom.trans hLe).trans_lt (exponentOf_spec hNum' hDen').2.1
    rw [zpow_lt_zpow_iff_right₀ (by norm_num)] at hPowers
    omega

/-! ## Numbers -/

/-- The mantissa of the number that is nearest to a quotient. -/
def mantissaOf (num den : Nat) : Nat :=
  let scaled := scaleDown num den (exponentOf num den)
  roundDiv scaled.1 scaled.2

/-- The number that is nearest to a quotient, if there were no greatest one. -/
def rounded (num den : Nat) : ℚ := mantissaOf num den * 2 ^ exponentOf num den

theorem div_le_div_iff_mul_le {num den num' den' : Nat} (hDen : 0 < den) (hDen' : 0 < den') :
    (num : ℚ) / den ≤ (num' : ℚ) / den' ↔ num * den' ≤ num' * den := by
  rw [div_le_div_iff₀ (by exact_mod_cast hDen) (by exact_mod_cast hDen')]
  exact_mod_cast Iff.rfl

theorem rounded_zero (den : Nat) : rounded 0 den = 0 := by
  have hZero : (scaleDown 0 den (exponentOf 0 den)).1 = 0 := by
    unfold scaleDown
    split <;> simp
  simp [rounded, mantissaOf, hZero, roundDiv_zero]

theorem rounded_nonneg (num den : Nat) : 0 ≤ rounded num den := by
  unfold rounded
  positivity

theorem mantissaOf_mono {num den num' den' : Nat} (hDen : 0 < den) (hDen' : 0 < den')
    (hLe : (num : ℚ) / den ≤ (num' : ℚ) / den')
    (hSame : exponentOf num den = exponentOf num' den') :
    mantissaOf num den ≤ mantissaOf num' den' := by
  obtain ⟨hPos, hScaled⟩ := scaleDown_eq num hDen (exponentOf num den)
  obtain ⟨hPos', hScaled'⟩ := scaleDown_eq num' hDen' (exponentOf num' den')
  refine roundDiv_mono hPos hPos' ((div_le_div_iff_mul_le hPos hPos').mp ?_)
  rw [hScaled, hScaled', hSame]
  gcongr

theorem mantissaOf_le {num den : Nat} (hNum : 0 < num) (hDen : 0 < den) :
    mantissaOf num den ≤ 2 ^ 53 := by
  obtain ⟨hPos, hScaled⟩ := scaleDown_eq num hDen (exponentOf num den)
  obtain ⟨_, hTo, _⟩ := exponentOf_spec hNum hDen
  rw [← roundDiv_one (2 ^ 53)]
  refine roundDiv_mono hPos Nat.one_pos ((div_le_div_iff_mul_le hPos Nat.one_pos).mp ?_)
  rw [hScaled, Nat.cast_one, div_one, div_le_iff₀ (by positivity)]
  rw [zpow_add₀ (by norm_num)] at hTo
  exact_mod_cast hTo.le

theorem le_mantissaOf {num den : Nat} (hNum : 0 < num) (hDen : 0 < den)
    (hMore : exponentOf num den ≠ -1074) : 2 ^ 52 ≤ mantissaOf num den := by
  obtain ⟨hPos, hScaled⟩ := scaleDown_eq num hDen (exponentOf num den)
  obtain ⟨_, _, hFrom⟩ := exponentOf_spec hNum hDen
  rw [← roundDiv_one (2 ^ 52)]
  refine roundDiv_mono Nat.one_pos hPos ((div_le_div_iff_mul_le Nat.one_pos hPos).mp ?_)
  rw [hScaled, Nat.cast_one, div_one, le_div_iff₀ (by positivity)]
  have hFrom := hFrom.resolve_left hMore
  rw [zpow_add₀ (by norm_num)] at hFrom
  exact_mod_cast hFrom

theorem rounded_mono {num den num' den' : Nat} (hDen : 0 < den) (hDen' : 0 < den')
    (hLe : num * den' ≤ num' * den) : rounded num den ≤ rounded num' den' := by
  rcases Nat.eq_zero_or_pos num with rfl | hNum
  · rw [rounded_zero]
    exact rounded_nonneg num' den'
  have hNum' : 0 < num' := Nat.pos_of_mul_pos_right
    (Nat.lt_of_lt_of_le (Nat.mul_pos hNum hDen') hLe)
  have hLe := (div_le_div_iff_mul_le hDen hDen').mpr hLe
  unfold rounded
  rcases (exponentOf_mono hNum hNum' hDen hDen' hLe).eq_or_lt with hSame | hLess
  · rw [hSame]
    gcongr
    exact mantissaOf_mono hDen hDen' hLe hSame
  · -- The least mantissa of the next exponent is worth as much as the greatest one of this.
    have hMore : exponentOf num' den' ≠ -1074 := by
      have hLeast := (exponentOf_spec hNum hDen).1
      omega
    calc (mantissaOf num den : ℚ) * 2 ^ exponentOf num den
        ≤ 2 ^ 53 * 2 ^ exponentOf num den := by
          gcongr
          exact_mod_cast mantissaOf_le hNum hDen
      _ = 2 ^ 52 * 2 ^ (exponentOf num den + 1) := by
          rw [zpow_add_one₀ (by norm_num)]
          ring
      _ ≤ mantissaOf num' den' * 2 ^ exponentOf num' den' := by
          gcongr
          · exact_mod_cast le_mantissaOf hNum' hDen' hMore
          · norm_num
          · exact hLess

/-- A mantissa of 53 bits is too large for the format exactly if its exponent is. -/
theorem lt_exponent_iff {m : Nat} {e : Int} (hTo : m < 2 ^ 53) (hFrom : e = -1074 ∨ 2 ^ 52 ≤ m) :
    971 < e ↔ (2 : ℚ) ^ 1024 ≤ m * 2 ^ e := by
  constructor
  · intro hLarge
    calc (2 : ℚ) ^ 1024 = 2 ^ 52 * 2 ^ (972 : Int) := by rw [zpow_ofNat, ← pow_add]
      _ ≤ (m : ℚ) * 2 ^ e := by
          gcongr
          · exact_mod_cast hFrom.resolve_left (by omega)
          · norm_num
          · exact hLarge
  · intro hLarge
    by_contra hSmall
    refine not_lt.mpr hLarge ?_
    calc (m : ℚ) * 2 ^ e < 2 ^ 53 * 2 ^ e := by
          gcongr
          exact_mod_cast hTo
      _ ≤ 2 ^ 53 * 2 ^ (971 : Int) := by
          gcongr
          · norm_num
          · omega
      _ = 2 ^ 1024 := by rw [zpow_ofNat, ← pow_add]

/-- A quotient that is not zero becomes a multiple of its power of two, or infinite if the exponent
is too large. -/
theorem ofRatio_normal {num den : Nat} (hNum : 0 < num) (hDen : 0 < den) :
    ∃ m e, ofRatio false num den = (if 971 < e then .infinite false else .finite false m e) ∧
      -1074 ≤ e ∧ (m : ℚ) * 2 ^ e = rounded num den ∧
      m < 2 ^ 53 ∧ (e = -1074 ∨ 2 ^ 52 ≤ m) := by
  have hLeast := (exponentOf_spec hNum hDen).1
  unfold ofRatio
  rw [if_neg (Nat.ne_of_gt hNum)]
  -- Rounding up can give a mantissa of one more bit, which is halved.
  by_cases hFull : mantissaOf num den = twoTo 53
  · refine ⟨twoTo 52, exponentOf num den + 1, ?_, by omega, ?_, by decide, Or.inr (Nat.le_refl _)⟩
    · rw [mantissaOf] at hFull
      simp only [hFull, if_true]
    · rw [rounded, hFull, zpow_add_one₀ (by norm_num)]
      norm_num [twoTo]
      ring
  · refine ⟨mantissaOf num den, exponentOf num den, ?_, hLeast, rfl,
      Nat.lt_of_le_of_ne (mantissaOf_le hNum hDen) hFull,
      or_iff_not_imp_left.mpr (le_mantissaOf hNum hDen)⟩
    rw [mantissaOf] at hFull
    simp only [hFull, if_false]
    rfl

/-- The number that stands for a quotient is the nearest one, or infinite if that is too large. -/
theorem ofRatio_cases (num : Nat) {den : Nat} (hDen : 0 < den) :
    (ofRatio false num den = .infinite false ∧ 2 ^ 1024 ≤ rounded num den) ∨
    ∃ m e, ofRatio false num den = .finite false m e ∧ -1074 ≤ e ∧
      (m : ℚ) * 2 ^ e = rounded num den ∧ rounded num den < 2 ^ 1024 := by
  rcases Nat.eq_zero_or_pos num with rfl | hNum
  · exact Or.inr ⟨0, -1074, rfl, Int.le_refl _, by simp [rounded_zero], by simp [rounded_zero]⟩
  · obtain ⟨m, e, hResult, hLeast, hValue, hTo, hFrom⟩ := ofRatio_normal hNum hDen
    have hLarge := lt_exponent_iff hTo hFrom
    rw [hValue] at hLarge
    rw [hResult]
    split
    · next h => exact Or.inl ⟨rfl, hLarge.mp h⟩
    · next h => exact Or.inr ⟨m, e, rfl, hLeast, hValue, not_le.mp (mt hLarge.mpr h)⟩

/-! ## Order -/

theorem units_eq {m : Nat} {e : Int} (hLeast : -1074 ≤ e) :
    (units false m e : ℚ) = m * 2 ^ e * 2 ^ 1074 := by
  obtain ⟨k, hk⟩ := Int.eq_ofNat_of_zero_le (show 0 ≤ e + 1074 by omega)
  have hPower : (2 : ℚ) ^ e * 2 ^ 1074 = 2 ^ k := by
    rw [← zpow_ofNat, ← zpow_natCast, ← zpow_add₀ (by norm_num)]
    exact congrArg _ hk
  rw [units, hk, mul_assoc, hPower]
  simp [twoTo_eq]

/-- A number is at most another one: it is not greater, and what is less than it is less than the
other one too. -/
def AtMost (x y : Binary64) : Prop :=
  y.lt x = false ∧ ∀ bound : Binary64, bound.lt x = true → bound.lt y = true

theorem AtMost.finite {m n : Nat} {e f : Int} (h : units false m e ≤ units false n f) :
    AtMost (.finite false m e) (.finite false n f) := by
  refine ⟨decide_eq_false (not_lt.mpr h), fun bound hBound => ?_⟩
  cases bound with
  | finite a k g => exact decide_eq_true ((of_decide_eq_true hBound).trans_le h)
  | infinite a => exact hBound
  | nan => exact hBound

theorem AtMost.infinite {x : Binary64} (h : x ≠ .nan) : AtMost x (.infinite false) := by
  cases x with
  | finite a m e => exact ⟨rfl, fun bound hBound => by cases bound <;> simp_all [lt]⟩
  | infinite a => exact ⟨by simp [lt], fun bound hBound => by cases bound <;> simp_all [lt]⟩
  | nan => exact absurd rfl h

/-- Rounding keeps the order of quotients, also if one of them is too large for the format. -/
theorem ofRatio_mono {num den num' den' : Nat} (hDen : 0 < den) (hDen' : 0 < den')
    (hLe : num * den' ≤ num' * den) : AtMost (ofRatio false num den) (ofRatio false num' den') := by
  have hRounded := rounded_mono hDen hDen' hLe
  rcases ofRatio_cases num hDen with ⟨hInf, hLarge⟩ | ⟨m, e, hFin, hLeast, hValue, _⟩
  · rcases ofRatio_cases num' hDen' with ⟨hInf', _⟩ | ⟨n, f, _, _, _, hSmall⟩
    · rw [hInf, hInf']
      exact .infinite (by simp)
    · exact absurd (hLarge.trans hRounded) (not_le.mpr hSmall)
  · rcases ofRatio_cases num' hDen' with ⟨hInf', _⟩ | ⟨n, f, hFin', hLeast', hValue', _⟩
    · rw [hFin, hInf']
      exact .infinite (by simp)
    · rw [hFin, hFin']
      refine .finite ?_
      have hUnits : (units false m e : ℚ) ≤ units false n f := by
        rw [units_eq hLeast, units_eq hLeast', hValue, hValue']
        gcongr
      exact_mod_cast hUnits

end ProseLint.Binary64
