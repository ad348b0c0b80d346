import Mathlib.Algebra.Order.Field.Rat
import Mathlib.Algebra.Order.Field.Power
import Mathlib.Data.Nat.Digits.Defs
import Mathlib.Tactic.Linarith
import Mathlib.Tactic.NormNum
import Mathlib.Tactic.Positivity
import ModuleRoutes.Number.Binary64

/-!
# Overflow

Rounding has no result exactly for the quotients from halfway between the greatest finite number and
`2 ^ 1024` on (`ModuleRoutes.Number.Binary64.round_eq_none_iff`), and so it is for numbers in
decimal notation (`ModuleRoutes.Number.Binary64.ofDecimal_eq_none_iff`), whether their exponent is
looked at or their power is computed.
-/

namespace ModuleRoutes

namespace Number

/-- The least magnitude that no finite number is near enough to, `2 ^ 970` above the greatest finite
number. -/
def overflow : ℚ := (2 ^ 54 - 1) * 2 ^ 970

theorem two_pow_le_overflow : (2 : ℚ) ^ 1023 ≤ overflow := by
  calc (2 : ℚ) ^ 1023 = 2 ^ 53 * 2 ^ 970 := by rw [← pow_add]
    _ ≤ overflow := mul_le_mul_of_nonneg_right (by norm_num) (by positivity)

theorem overflow_le_two_pow : overflow ≤ (2 : ℚ) ^ 1024 := by
  calc overflow ≤ 2 ^ 54 * 2 ^ 970 := mul_le_mul_of_nonneg_right (by norm_num) (by positivity)
    _ = 2 ^ 1024 := by rw [← pow_add]

theorem overflow_pos : 0 < overflow := lt_of_lt_of_le (by positivity) two_pow_le_overflow

variable {num den : Nat} {exponent : Int}

/-! ## Powers -/

theorem cast_tenTo (n : Nat) : ((tenTo n : Nat) : ℚ) = 10 ^ n := Nat.cast_pow 10 n

theorem lt_two_zpow_log2 (n : Nat) : (n : ℚ) < 2 ^ ((Nat.log2 n : Int) + 1) := by
  have above := Nat.lt_log2_self (n := n)
  exact_mod_cast above

theorem two_zpow_log2_le {n : Nat} (nonzero : n ≠ 0) : (2 : ℚ) ^ (Nat.log2 n : Int) ≤ n := by
  have below := Nat.log2_self_le nonzero
  exact_mod_cast below

/-- A scaled quotient is the quotient over the power of two. -/
theorem scaled_eq (num den : Nat) (exponent : Int) :
    ((scaled num den exponent).1 : ℚ) / (scaled num den exponent).2 =
      (num : ℚ) / den / 2 ^ exponent := by
  unfold scaled twoTo
  split
  · next nonnegative =>
      obtain ⟨power, rfl⟩ := Int.eq_ofNat_of_zero_le nonnegative
      simp only [Int.toNat_natCast, zpow_natCast]
      push_cast
      rw [div_div]
      norm_cast
  · next negative =>
      obtain ⟨power, rfl⟩ : ∃ power : Nat, exponent = -(power : Int) :=
        ⟨(-exponent).toNat, by omega⟩
      simp only [neg_neg, Int.toNat_natCast, zpow_neg, zpow_natCast, div_inv_eq_mul]
      push_cast
      rw [div_mul_eq_mul_div]
      norm_cast

theorem scaled_snd_pos (positive : 0 < den) : 0 < (scaled num den exponent).2 := by
  unfold scaled twoTo
  split
  · exact Nat.mul_pos positive (Nat.two_pow_pos _)
  · exact positive

/-! ## Rounding a quotient -/

/-- A quotient is rounded to less than an even bound exactly if it is below the middle between the
bound and the natural before it, where a tie goes to the bound. -/
theorem divNearestEven_lt_iff {half : Nat} (positive : 0 < den) :
    divNearestEven num den < 2 * half ↔ (num : ℚ) / den < 2 * half - 1 / 2 := by
  have middle : (num : ℚ) / den < 2 * half - 1 / 2 ↔ 2 * num + den < 4 * half * den := by
    have above : (0 : ℚ) < den := by exact_mod_cast positive
    rw [div_lt_iff₀ above, ← Nat.cast_lt (α := ℚ)]
    push_cast
    constructor <;> intro less <;> linarith
  have cut := Nat.div_add_mod num den
  have rest := Nat.mod_lt num positive
  rw [middle, divNearestEven]
  generalize num / den = quotient at *
  generalize num % den = remainder at *
  subst cut
  rcases lt_trichotomy (quotient + 1) (2 * half) with less | same | greater
  · -- even rounded up, the quotient stays below the bound
    have fits : (quotient + 2) * den ≤ 2 * half * den := Nat.mul_le_mul_right den less
    refine iff_of_true ?_ (by nlinarith)
    split_ifs <;> omega
  · -- the quotient is odd, so a tie is rounded up
    have fits : (quotient + 1) * den = 2 * half * den := by rw [same]
    have product : 2 * (den * quotient + remainder) + den < 4 * half * den ↔
        2 * remainder < den := by
      constructor <;> intro less <;> nlinarith
    rw [product]
    split_ifs <;> omega
  · have exceeds : 2 * half * den ≤ quotient * den := Nat.mul_le_mul_right den (by omega)
    refine iff_of_false ?_ (by nlinarith)
    split_ifs <;> omega

namespace Binary64

theorem scaled_div_lt_twoTo_iff (positive : 0 < den) {bits : Nat} :
    (scaled num den exponent).1 / (scaled num den exponent).2 < twoTo bits ↔
      (num / den : ℚ) < 2 ^ (exponent + bits) := by
  have scaledPositive : 0 < (scaled num den exponent).2 := scaled_snd_pos positive
  have above : (0 : ℚ) < (scaled num den exponent).2 := by exact_mod_cast scaledPositive
  rw [zpow_add₀ two_ne_zero, mul_comm, ← div_lt_iff₀ (by positivity), ← scaled_eq,
    div_lt_iff₀ above, Nat.div_lt_iff_lt_mul scaledPositive, zpow_natCast, twoTo]
  exact_mod_cast Iff.rfl

/-- The exponent at which a quotient has 53 bits, as far as it is not below the least one. -/
theorem exists_exponentFor_eq (numPositive : 0 < num) (denPositive : 0 < den) :
    ∃ guess, exponentFor num den = max guess minExponent ∧
      (2 : ℚ) ^ (guess + 52) ≤ num / den ∧ (num / den : ℚ) < 2 ^ (guess + 53) := by
  have numAbove := lt_two_zpow_log2 num
  have numBelow := two_zpow_log2_le numPositive.ne'
  have denAbove := lt_two_zpow_log2 den
  have denBelow := two_zpow_log2_le denPositive.ne'
  have positive : (0 : ℚ) < den := by exact_mod_cast denPositive
  rw [exponentFor]
  generalize (Nat.log2 num : Int) = numBits at *
  generalize (Nat.log2 den : Int) = denBits at *
  have least : (2 : ℚ) ^ (numBits - denBits - 1) ≤ num / den := by
    rw [le_div_iff₀ positive]
    calc (2 : ℚ) ^ (numBits - denBits - 1) * den
        ≤ 2 ^ (numBits - denBits - 1) * 2 ^ (denBits + 1) := by gcongr
      _ = 2 ^ numBits := by rw [← zpow_add₀ two_ne_zero]; congr 1; omega
      _ ≤ num := numBelow
  have most : (num / den : ℚ) < 2 ^ (numBits - denBits + 1) := by
    rw [div_lt_iff₀ positive]
    calc (num : ℚ) < 2 ^ (numBits + 1) := numAbove
      _ = 2 ^ (numBits - denBits + 1) * 2 ^ denBits := by
        rw [← zpow_add₀ two_ne_zero]; congr 1; omega
      _ ≤ 2 ^ (numBits - denBits + 1) * den := by gcongr
  refine ⟨_, rfl, ?_⟩
  split
  · next less =>
      rw [scaled_div_lt_twoTo_iff denPositive] at less
      rw [show numBits - denBits - 52 - 1 + 52 = numBits - denBits - 1 by omega,
        show numBits - denBits - 52 - 1 + 53 = numBits - denBits - 52 + (52 : Nat) by omega]
      exact ⟨least, less⟩
  · next notLess =>
      rw [scaled_div_lt_twoTo_iff denPositive, not_lt] at notLess
      rw [show numBits - denBits - 52 + 53 = numBits - denBits + 1 by omega]
      exact ⟨notLess, most⟩

/-- A quotient is rounded to 53 bits at its exponent if it is below the middle between the greatest
number of 53 bits and the next power of two. -/
theorem divNearestEven_scaled_lt_iff (positive : 0 < den) :
    divNearestEven (scaled num den exponent).1 (scaled num den exponent).2 < significandLimit ↔
      (num / den : ℚ) < (2 ^ 54 - 1) * 2 ^ (exponent - 1) := by
  have limit : significandLimit = 2 * 2 ^ 52 := rfl
  rw [limit, divNearestEven_lt_iff (scaled_snd_pos positive), scaled_eq,
    div_lt_iff₀ (by positivity), zpow_sub_one₀ two_ne_zero]
  push_cast
  constructor <;> intro less <;> linarith

/-- **Overflow.** A quotient has no nearest number exactly if it is too great. -/
theorem round_eq_none_iff {negative : Bool} (positive : 0 < den) :
    round negative num den = none ↔ overflow ≤ (num : ℚ) / den := by
  rcases Nat.eq_zero_or_pos num with rfl | numPositive
  · rw [round, if_pos rfl, Nat.cast_zero, zero_div]
    exact iff_of_false nofun (not_le.mpr overflow_pos)
  obtain ⟨guess, exponent, least, most⟩ := exists_exponentFor_eq numPositive positive
  rw [round, if_neg numPositive.ne', exponent]
  dsimp only
  have minLess : minExponent < maxExponent := by decide
  rcases lt_trichotomy guess maxExponent with less | rfl | greater
  · -- there is room for one more exponent
    have fits : max guess minExponent + 1 ≤ maxExponent := by omega
    refine iff_of_false ?_ (not_le.mpr ?_)
    · split_ifs <;> first | omega | exact nofun
    · have top : guess + 53 ≤ 1023 := by unfold maxExponent at less; omega
      calc (num / den : ℚ) < 2 ^ (guess + 53) := most
        _ ≤ 2 ^ (1023 : Int) := zpow_le_zpow_right₀ one_le_two top
        _ ≤ overflow := by exact_mod_cast two_pow_le_overflow
  · -- a quotient that is rounded up to 54 bits has no exponent left
    rw [max_eq_left minLess.le]
    have middle := @divNearestEven_scaled_lt_iff num den maxExponent positive
    have bound : (2 ^ 54 - 1) * 2 ^ (maxExponent - 1) = overflow := rfl
    rw [bound] at middle
    refine Iff.trans ?_ (middle.not.trans not_lt)
    generalize divNearestEven _ _ = significand
    by_cases fits : significand < significandLimit <;> simp [fits]
  · have top : maxExponent < max guess minExponent := by omega
    refine iff_of_true ?_ ?_
    · split_ifs <;> first | omega | rfl
    · have bottom : 1024 ≤ guess + 52 := by unfold maxExponent at greater; omega
      calc overflow ≤ 2 ^ (1024 : Int) := by exact_mod_cast overflow_le_two_pow
        _ ≤ 2 ^ (guess + 52) := zpow_le_zpow_right₀ one_le_two bottom
        _ ≤ num / den := least

/-! ## Decimal notation -/

theorem ten_zpow_le_of_toDigits {digits : Nat} (nonzero : digits ≠ 0) :
    (10 : ℚ) ^ ((Nat.toDigits 10 digits).length - 1 : Int) ≤ digits ∧
      (digits : ℚ) < 10 ^ ((Nat.toDigits 10 digits).length : Int) := by
  have shorter := fun length positive =>
    @Nat.length_toDigits_le_iff 10 digits length (by decide) positive
  have positive := @Nat.length_toDigits_pos 10 digits
  generalize (Nat.toDigits 10 digits).length = length at *
  obtain ⟨before, rfl⟩ := Nat.exists_eq_add_one.mpr positive
  have most := (shorter _ positive).mp le_rfl
  have least : 10 ^ before ≤ digits := by
    rcases Nat.eq_zero_or_pos before with rfl | some
    · exact Nat.pos_of_ne_zero nonzero
    · exact not_lt.mp (mt (shorter before some).mpr (by omega))
  rw [Nat.cast_add_one, add_sub_cancel_right]
  exact_mod_cast And.intro least most

theorem overflow_le_ten_pow : overflow ≤ (10 : ℚ) ^ 400 := by
  calc overflow ≤ 2 ^ 1024 := overflow_le_two_pow
    _ ≤ 2 ^ (3 * 400) := pow_le_pow_right₀ one_le_two (by decide)
    _ = 8 ^ 400 := by rw [pow_mul]; norm_num
    _ ≤ 10 ^ 400 := pow_le_pow_left₀ (by norm_num) (by norm_num) 400

/-- A number in decimal notation has no nearest number exactly if it is too great. -/
theorem ofDecimal_eq_none_iff {negative : Bool} {digits : Nat} {exponent : Int} :
    ofDecimal negative digits exponent = none ↔ overflow ≤ digits * (10 : ℚ) ^ exponent := by
  rw [ofDecimal]
  by_cases zero : digits = 0
  · rw [if_pos zero, zero, Nat.cast_zero, zero_mul]
    exact iff_of_false nofun (not_le.mpr overflow_pos)
  rw [if_neg zero]
  obtain ⟨least, most⟩ := ten_zpow_le_of_toDigits zero
  generalize ((Nat.toDigits 10 digits).length : Int) = length at *
  dsimp only
  split_ifs with tiny huge natural
  · refine iff_of_false nofun (not_le.mpr ?_)
    calc digits * (10 : ℚ) ^ exponent < 10 ^ length * 10 ^ exponent := by gcongr
      _ = 10 ^ (length + exponent) := (zpow_add₀ (by norm_num) _ _).symm
      _ ≤ 1 := zpow_le_one_of_nonpos₀ (by norm_num) (by omega)
      _ ≤ 2 ^ 1023 := one_le_pow₀ one_le_two
      _ ≤ overflow := two_pow_le_overflow
  · refine iff_of_true rfl ?_
    calc overflow ≤ (10 : ℚ) ^ (400 : Int) := by exact_mod_cast overflow_le_ten_pow
      _ ≤ 10 ^ (length - 1 + exponent) := zpow_le_zpow_right₀ (by norm_num) (by omega)
      _ = 10 ^ (length - 1) * 10 ^ exponent := zpow_add₀ (by norm_num) _ _
      _ ≤ digits * 10 ^ exponent := by gcongr
  · obtain ⟨power, rfl⟩ := Int.eq_ofNat_of_zero_le natural
    rw [round_eq_none_iff Nat.one_pos, Int.toNat_natCast, zpow_natCast, Nat.cast_mul, cast_tenTo,
      Nat.cast_one, div_one]
  · obtain ⟨power, rfl⟩ : ∃ power : Nat, exponent = -(power : Int) :=
      ⟨(-exponent).toNat, by omega⟩
    have positive : 0 < tenTo power := Nat.pow_pos (by decide)
    rw [neg_neg, Int.toNat_natCast, round_eq_none_iff positive, cast_tenTo, zpow_neg, zpow_natCast,
      ← div_eq_mul_inv]

end Binary64

end Number

end ModuleRoutes
