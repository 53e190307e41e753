import Mathlib.Algebra.Order.Field.Power
import Mathlib.Data.Rat.Cast.Order
import Mathlib.Tactic.FieldSimp
import Mathlib.Tactic.Linarith
import Mathlib.Tactic.NormNum
import Mathlib.Tactic.Positivity
import Mathlib.Tactic.Ring
import AssemblyBrowser.Decimal.Rounding

/-!
# Nearest numbers

A pattern of a binary format stands for a rational number, unless it is infinite
or no number at all. Patterns are equal as numbers if they stand for the same
one. The pattern nearest to a fraction never passes a number that the format
has: if such a number lies below the fraction it does not lie above the pattern,
and the other way round. So what the format has is its own nearest number.
-/

namespace AssemblyBrowser.Decimal

def signed (negative : Bool) (number : ℚ) : ℚ := if negative then -number else number

/-- The number that a pattern stands for. -/
def Binary.value? : Binary → Option ℚ
  | .finite negative mantissa exponent _ => some (signed negative (mantissa * 2 ^ exponent))
  | .infinity _ => none
  | .nan => none

theorem Binary.exists_finite {binary : Binary} {number : ℚ} (h : binary.value? = some number) :
    ∃ negative mantissa exponent narrow, binary = .finite negative mantissa exponent narrow ∧
      number = signed negative (mantissa * 2 ^ exponent) := by
  cases binary with
  | nan | infinity => cases h
  | finite negative mantissa exponent narrow =>
      exact ⟨negative, mantissa, exponent, narrow, rfl, (Option.some_inj.mp h).symm⟩

/-!
## Patterns
-/

/-- The pattern of a magnitude with a sign. -/
def pattern (negative : Bool) (magnitude : Nat) : Nat :=
  (if negative then 2 ^ 63 else 0) + magnitude

theorem exists_pattern {bits : Nat} (h : bits < 2 ^ 64) :
    ∃ negative magnitude, magnitude < 2 ^ 63 ∧ pattern negative magnitude = bits := by
  rcases Nat.lt_or_ge bits (2 ^ 63) with hlt | hge
  · exact ⟨false, bits, hlt, Nat.zero_add bits⟩
  · exact ⟨true, bits - 2 ^ 63, by omega, Nat.add_sub_cancel' hge⟩

/-- The number of a magnitude, counted in the least of all steps. -/
def units (magnitude : Nat) : Nat :=
  if magnitude < 2 ^ 52 then magnitude
  else (2 ^ 52 + magnitude % 2 ^ 52) * 2 ^ (magnitude / 2 ^ 52 - 1)

theorem units_lt {first second : Nat} (h : first < second) : units first < units second := by
  unfold units
  split_ifs with hfirst hsecond hsecond
  · exact h
  · calc first
      _ < 2 ^ 52 + second % 2 ^ 52 := by omega
      _ ≤ (2 ^ 52 + second % 2 ^ 52) * 2 ^ (second / 2 ^ 52 - 1) :=
          Nat.le_mul_of_pos_right _ (Nat.two_pow_pos _)
  · omega
  · rcases Nat.lt_or_ge (first / 2 ^ 52) (second / 2 ^ 52) with hstep | hstep
    · calc (2 ^ 52 + first % 2 ^ 52) * 2 ^ (first / 2 ^ 52 - 1)
        _ < 2 ^ 53 * 2 ^ (first / 2 ^ 52 - 1) :=
            Nat.mul_lt_mul_of_pos_right (by omega) (Nat.two_pow_pos _)
        _ = 2 ^ 52 * 2 ^ (first / 2 ^ 52 - 1 + 1) := by ring
        _ ≤ 2 ^ 52 * 2 ^ (second / 2 ^ 52 - 1) :=
            Nat.mul_le_mul_left _ (Nat.pow_le_pow_right (by decide) (by omega))
        _ ≤ (2 ^ 52 + second % 2 ^ 52) * 2 ^ (second / 2 ^ 52 - 1) :=
            Nat.mul_le_mul_right _ (Nat.le_add_right _ _)
    · have hsame : second / 2 ^ 52 = first / 2 ^ 52 := by omega
      rw [hsame]
      exact Nat.mul_lt_mul_of_pos_right (by omega) (Nat.two_pow_pos _)

theorem units_injective : Function.Injective units := by
  intro first second h
  rcases Nat.lt_trichotomy first second with hlt | heq | hgt
  · exact absurd h (units_lt hlt).ne
  · exact heq
  · exact absurd h (units_lt hgt).ne'

/-- A magnitude that is put together from a step and a mantissa. -/
theorem units_step {step mantissa : Nat} (hle : mantissa ≤ 2 ^ 53)
    (hleading : 0 < step → 2 ^ 52 ≤ mantissa) :
    units (step * 2 ^ 52 + mantissa) = mantissa * 2 ^ step := by
  unfold units
  rcases Nat.lt_or_ge mantissa (2 ^ 52) with hsmall | hlarge
  · obtain rfl : step = 0 := by omega
    rw [if_pos (by omega)]
    simp
  · rw [if_neg (by omega)]
    rcases Nat.eq_or_lt_of_le hle with rfl | hlt
    · have hstep : (step * 2 ^ 52 + 2 ^ 53) / 2 ^ 52 - 1 = step + 1 := by omega
      have hrest : (step * 2 ^ 52 + 2 ^ 53) % 2 ^ 52 = 0 := by omega
      rw [hstep, hrest, Nat.pow_succ]
      ring
    · have hstep : (step * 2 ^ 52 + mantissa) / 2 ^ 52 - 1 = step := by omega
      have hrest : 2 ^ 52 + (step * 2 ^ 52 + mantissa) % 2 ^ 52 = mantissa := by omega
      rw [hstep, hrest]

theorem ofBits_binary64 (bits : Nat) : Binary.ofBits binary64 bits =
    if bits / 2 ^ 52 % 2 ^ 11 = 2047 then
      if bits % 2 ^ 52 = 0 then .infinity (bits / 2 ^ 63 % 2 == 1) else .nan
    else if bits / 2 ^ 52 % 2 ^ 11 = 0 then
      .finite (bits / 2 ^ 63 % 2 == 1) (bits % 2 ^ 52) (-1074) false
    else .finite (bits / 2 ^ 63 % 2 == 1) (2 ^ 52 + bits % 2 ^ 52)
      ((bits / 2 ^ 52 % 2 ^ 11 : Nat) - 1075)
      (bits % 2 ^ 52 == 0 && bits / 2 ^ 52 % 2 ^ 11 != 1) := rfl

theorem ofBits_pattern {negative : Bool} {magnitude : Nat} (h : magnitude < 2 ^ 63) :
    Binary.ofBits binary64 (pattern negative magnitude) =
      if magnitude / 2 ^ 52 = 2047 then
        if magnitude % 2 ^ 52 = 0 then .infinity negative else .nan
      else if magnitude / 2 ^ 52 = 0 then .finite negative (magnitude % 2 ^ 52) (-1074) false
      else .finite negative (2 ^ 52 + magnitude % 2 ^ 52) ((magnitude / 2 ^ 52 : Nat) - 1075)
        (magnitude % 2 ^ 52 == 0 && magnitude / 2 ^ 52 != 1) := by
  have hfraction : pattern negative magnitude % 2 ^ 52 = magnitude % 2 ^ 52 := by
    unfold pattern
    split_ifs <;> omega
  have hexponent : pattern negative magnitude / 2 ^ 52 % 2 ^ 11 = magnitude / 2 ^ 52 := by
    unfold pattern
    split_ifs <;> omega
  have hsign : (pattern negative magnitude / 2 ^ 63 % 2 == 1) = negative := by
    unfold pattern
    cases negative <;> simp <;> omega
  rw [ofBits_binary64, hfraction, hexponent, hsign]

/-- The pattern of a magnitude stands for as many steps, unless it is too large. -/
theorem value?_ofBits_pattern {negative : Bool} {magnitude : Nat} (h : magnitude < 2 ^ 63) :
    (Binary.ofBits binary64 (pattern negative magnitude)).value? =
      if magnitude < 2047 * 2 ^ 52 then
        some (signed negative (units magnitude * 2 ^ (-1074 : Int)))
      else none := by
  rw [ofBits_pattern h]
  split_ifs with htop hzero hlarge hlarge hlow hsmall hsmall
  · omega
  · rfl
  · omega
  · rfl
  · have hunits : units magnitude = magnitude % 2 ^ 52 := by
      unfold units
      rw [if_pos (by omega), Nat.mod_eq_of_lt (by omega)]
    rw [hunits]
    rfl
  · omega
  · have hexponent : ((magnitude / 2 ^ 52 : Nat) : Int) - 1075 =
        ((magnitude / 2 ^ 52 - 1 : Nat) : Int) + (-1074) := by omega
    rw [Binary.value?, hexponent, zpow_add₀ two_ne_zero, zpow_natCast, units, if_neg (by omega)]
    rw [Nat.cast_mul, Nat.cast_pow, Nat.cast_ofNat, mul_assoc]
  · omega

theorem pattern_mod {magnitude : Nat} (negative : Bool) (h : magnitude < 2 ^ 63) :
    pattern negative magnitude % 2 ^ 63 = magnitude := by
  unfold pattern
  split_ifs <;> omega

theorem mod_lt_of_value? {bits : Nat} {number : ℚ} (h : bits < 2 ^ 64)
    (hvalue : (Binary.ofBits binary64 bits).value? = some number) :
    bits % 2 ^ 63 < 2047 * 2 ^ 52 := by
  obtain ⟨negative, magnitude, hmagnitude, rfl⟩ := exists_pattern h
  rw [value?_ofBits_pattern hmagnitude] at hvalue
  split_ifs at hvalue with hfinite
  rwa [pattern_mod negative hmagnitude]

theorem units_eq_zero_iff {magnitude : Nat} : units magnitude = 0 ↔ magnitude = 0 :=
  units_injective.eq_iff' rfl

/-- Magnitudes with signs are the same number if they agree in both, or if they are zero. -/
theorem signed_units_eq_iff {negative other : Bool} {first second : Nat} :
    signed negative (units first * 2 ^ (-1074 : Int)) =
        signed other (units second * 2 ^ (-1074 : Int)) ↔
      negative = other ∧ first = second ∨ first = 0 ∧ second = 0 := by
  have hstep : (2 : ℚ) ^ (-1074 : Int) ≠ 0 := zpow_ne_zero _ two_ne_zero
  have hsame : (units first : ℚ) = units second ↔ first = second := by
    rw [Nat.cast_inj, units_injective.eq_iff]
  have hopposite : (units first : ℚ) = -units second ↔ first = 0 ∧ second = 0 := by
    rw [eq_neg_iff_add_eq_zero, ← Nat.cast_add, Nat.cast_eq_zero, Nat.add_eq_zero_iff,
      units_eq_zero_iff, units_eq_zero_iff]
  cases negative <;> cases other <;>
    simp only [signed, if_true, if_false, Bool.false_eq_true, ← neg_mul, mul_left_inj' hstep,
      neg_eq_iff_eq_neg, neg_neg, hsame, hopposite, reduceCtorEq, true_and, false_and, false_or] <;>
    omega

theorem sameNumber_eq {first second : Nat} (hfirst : Binary.ofBits binary64 first ≠ .nan)
    (hsecond : Binary.ofBits binary64 second ≠ .nan) :
    sameNumber first second = (first == second ||
      (first % 2 ^ 63 == 0 && second % 2 ^ 63 == 0)) := by
  unfold sameNumber
  split
  · exact absurd ‹_› hfirst
  · exact absurd ‹_› hsecond
  · rfl

theorem sameNumber_nan {second : Nat} (first : Nat)
    (h : Binary.ofBits binary64 second = .nan) : sameNumber first second = false := by
  unfold sameNumber
  rw [h]
  cases Binary.ofBits binary64 first <;> rfl

theorem pattern_eq_iff {negative other : Bool} {first second : Nat} (hfirst : first < 2 ^ 63)
    (hsecond : second < 2 ^ 63) :
    pattern negative first = pattern other second ↔ negative = other ∧ first = second := by
  unfold pattern
  cases negative <;> cases other <;> simp <;> omega

/-- If a pattern stands for a number, then the patterns that are the same number are those that
stand for it too. -/
theorem sameNumber_iff {first second : Nat} {number : ℚ} (hfirst : first < 2 ^ 64)
    (hsecond : second < 2 ^ 64) (h : (Binary.ofBits binary64 first).value? = some number) :
    sameNumber first second = true ↔ (Binary.ofBits binary64 second).value? = some number := by
  have hnumber : Binary.ofBits binary64 first ≠ .nan := by
    intro hnan
    rw [hnan] at h
    cases h
  obtain ⟨negative, magnitude, hmagnitude, rfl⟩ := exists_pattern hfirst
  obtain ⟨other, others, hothers, rfl⟩ := exists_pattern hsecond
  rw [value?_ofBits_pattern hmagnitude] at h
  split_ifs at h with hfinite
  cases h
  by_cases hnan : Binary.ofBits binary64 (pattern other others) = .nan
  · rw [sameNumber_nan _ hnan, hnan]
    simp [Binary.value?]
  · rw [sameNumber_eq hnumber hnan, value?_ofBits_pattern hothers, pattern_mod _ hmagnitude,
      pattern_mod _ hothers]
    simp only [Bool.or_eq_true, Bool.and_eq_true, beq_iff_eq, pattern_eq_iff hmagnitude hothers]
    split_ifs with hothersFinite
    · rw [Option.some_inj, ← signed_units_eq_iff]
      exact eq_comm
    · simp only [iff_false]
      omega

/-!
## Fractions and integers
-/

namespace Ratio

variable {r : Ratio}

def value (r : Ratio) : ℚ := r.numerator / r.denominator

theorem value_shiftDown (r : Ratio) (exponent : Int) :
    (r.shiftDown exponent).value = r.value / 2 ^ exponent := by
  cases exponent with
  | ofNat e =>
      rw [shiftDown, value, value, Int.ofNat_eq_natCast, zpow_natCast, div_div]
      simp
  | negSucc e =>
      rw [shiftDown, value, value, zpow_negSucc, div_inv_eq_mul, div_mul_eq_mul_div]
      simp

theorem denominator_shiftDown (h : 0 < r.denominator) (exponent : Int) :
    0 < (r.shiftDown exponent).denominator := by
  cases exponent with
  | ofNat e => exact Nat.mul_pos h (Nat.two_pow_pos e)
  | negSucc e => exact h

theorem le_roundEven (h : 0 < r.denominator) {bound : Nat} (hle : bound ≤ r.value) :
    bound ≤ r.roundEven := by
  have hdenominator : (0 : ℚ) < r.denominator := Nat.cast_pos.mpr h
  have hmul : bound * r.denominator ≤ r.numerator := by
    rw [value, le_div_iff₀ hdenominator] at hle
    exact_mod_cast hle
  have hquotient : bound ≤ r.numerator / r.denominator := (Nat.le_div_iff_mul_le h).mpr hmul
  unfold roundEven
  dsimp only
  split_ifs <;> omega

theorem roundEven_le (h : 0 < r.denominator) {bound : Nat} (hle : r.value ≤ bound) :
    r.roundEven ≤ bound := by
  have hdenominator : (0 : ℚ) < r.denominator := Nat.cast_pos.mpr h
  have hmul : r.numerator ≤ bound * r.denominator := by
    rw [value, div_le_iff₀ hdenominator] at hle
    exact_mod_cast hle
  have hquotient : r.numerator / r.denominator ≤ bound := Nat.div_le_of_le_mul (by linarith)
  -- Where the quotient is the bound itself, nothing is left to round up for.
  have hrest : r.numerator / r.denominator = bound → r.numerator % r.denominator = 0 := by
    intro heq
    have hdivision := Nat.div_add_mod r.numerator r.denominator
    rw [heq, Nat.mul_comm] at hdivision
    omega
  unfold roundEven
  dsimp only
  split_ifs <;> omega

/-!
## Leading digits
-/

theorem log2_bounds {n : Nat} (h : 0 < n) :
    (2 : ℚ) ^ (n.log2 : Int) ≤ n ∧ (n : ℚ) < 2 ^ ((n.log2 : Int) + 1) := by
  have hlower := Nat.log2_self_le h.ne'
  have hupper := @Nat.lt_log2_self n
  rw [← Nat.cast_succ, zpow_natCast, zpow_natCast]
  exact ⟨by exact_mod_cast hlower, by exact_mod_cast hupper⟩

/-- How many more digits the numerator has than the denominator. -/
def gap (r : Ratio) : Int := (r.numerator.log2 : Int) - r.denominator.log2

theorem gap_bounds (hnumerator : 0 < r.numerator) (hdenominator : 0 < r.denominator) :
    2 ^ (r.gap - 1) ≤ r.value ∧ r.value < 2 ^ (r.gap + 1) := by
  obtain ⟨hlower, hupper⟩ := log2_bounds hnumerator
  obtain ⟨hover, hunder⟩ := log2_bounds hdenominator
  have hpositive : (0 : ℚ) < r.denominator := Nat.cast_pos.mpr hdenominator
  have hless : r.gap - 1 + ((r.denominator.log2 : Int) + 1) = r.numerator.log2 := by
    unfold gap
    ring
  have hmore : r.gap + 1 + (r.denominator.log2 : Int) = r.numerator.log2 + 1 := by
    unfold gap
    ring
  rw [value, le_div_iff₀ hpositive, div_lt_iff₀ hpositive]
  constructor
  · calc (2 : ℚ) ^ (r.gap - 1) * r.denominator
      _ ≤ 2 ^ (r.gap - 1) * 2 ^ ((r.denominator.log2 : Int) + 1) := by gcongr
      _ = 2 ^ (r.numerator.log2 : Int) := by rw [← zpow_add₀ two_ne_zero, hless]
      _ ≤ r.numerator := hlower
  · calc (r.numerator : ℚ)
      _ < 2 ^ ((r.numerator.log2 : Int) + 1) := hupper
      _ = 2 ^ (r.gap + 1) * 2 ^ (r.denominator.log2 : Int) := by
          rw [← zpow_add₀ two_ne_zero, hmore]
      _ ≤ 2 ^ (r.gap + 1) * r.denominator := by gcongr

/-- The exponent at which a fraction has as many digits in front of its point as a mantissa. -/
def leading (r : Ratio) : Int :=
  let scaled := r.shiftDown (r.gap - 52)
  if scaled.numerator < scaled.denominator * 2 ^ 52 then r.gap - 52 - 1 else r.gap - 52

theorem numerator_lt_iff (h : 0 < r.denominator) (bound : Nat) :
    r.numerator < r.denominator * bound ↔ r.value < bound := by
  rw [value, div_lt_iff₀ (Nat.cast_pos.mpr h), ← Nat.cast_mul, Nat.cast_lt, Nat.mul_comm]

theorem leading_bounds (hnumerator : 0 < r.numerator) (hdenominator : 0 < r.denominator) :
    2 ^ (r.leading + 52) ≤ r.value ∧ r.value < 2 ^ (r.leading + 53) := by
  obtain ⟨hlower, hupper⟩ := gap_bounds hnumerator hdenominator
  have hsmall : (r.shiftDown (r.gap - 52)).numerator <
      (r.shiftDown (r.gap - 52)).denominator * 2 ^ 52 ↔ r.value < 2 ^ r.gap := by
    rw [numerator_lt_iff (denominator_shiftDown hdenominator _), value_shiftDown,
      div_lt_iff₀ (zpow_pos two_pos _), Nat.cast_pow, Nat.cast_ofNat, ← zpow_natCast,
      ← zpow_add₀ two_ne_zero]
    norm_num
  unfold leading
  simp only [hsmall]
  split_ifs with hless
  · rw [show r.gap - 52 - 1 + 52 = r.gap - 1 by ring, show r.gap - 52 - 1 + 53 = r.gap by ring]
    exact ⟨hlower, hless⟩
  · rw [show r.gap - 52 + 52 = r.gap by ring, show r.gap - 52 + 53 = r.gap + 1 by ring]
    exact ⟨not_lt.mp hless, hupper⟩

/-!
## Rounding
-/

/-- The exponent of the nearest number. -/
def exponent (r : Ratio) : Int := max r.leading (-1074)

/-- The mantissa of the nearest number; at the upper end it may have one digit more than others. -/
def mantissa (r : Ratio) : Nat := (r.shiftDown r.exponent).roundEven

/-- The nearest number, where the exponent has no upper bound. -/
def nearest (r : Ratio) : ℚ := r.mantissa * 2 ^ r.exponent

section Positive

variable (hnumerator : 0 < r.numerator) (hdenominator : 0 < r.denominator)
include hnumerator hdenominator

theorem mantissa_le : r.mantissa ≤ 2 ^ 53 := by
  refine roundEven_le (denominator_shiftDown hdenominator _) ?_
  rw [value_shiftDown, div_le_iff₀ (zpow_pos two_pos _), Nat.cast_pow, Nat.cast_ofNat,
    ← zpow_natCast, ← zpow_add₀ two_ne_zero]
  refine (leading_bounds hnumerator hdenominator).2.le.trans (zpow_le_zpow_right₀ one_le_two ?_)
  have hle : r.leading ≤ r.exponent := le_max_left _ _
  omega

/-- Above the least exponent a mantissa has all its digits. -/
theorem le_mantissa (h : -1074 < r.exponent) : 2 ^ 52 ≤ r.mantissa := by
  have hexponent : r.exponent = r.leading := by
    unfold exponent at h ⊢
    omega
  refine le_roundEven (denominator_shiftDown hdenominator _) ?_
  rw [value_shiftDown, le_div_iff₀ (zpow_pos two_pos _), Nat.cast_pow, Nat.cast_ofNat,
    ← zpow_natCast, ← zpow_add₀ two_ne_zero, hexponent, add_comm]
  exact (leading_bounds hnumerator hdenominator).1

end Positive

end Ratio

/-- The number is one of the format, if this had no greatest exponent. -/
def Representable (number : ℚ) : Prop :=
  ∃ (mantissa : Nat) (exponent : Int), mantissa < 2 ^ 53 ∧ -1074 ≤ exponent ∧
    number = mantissa * 2 ^ exponent

theorem exists_multiple (mantissa : Nat) {fine coarse : Int} (h : fine ≤ coarse) :
    ∃ multiple : Nat, (mantissa : ℚ) * 2 ^ coarse = multiple * 2 ^ fine := by
  obtain ⟨shift, rfl⟩ := Int.le.dest h
  refine ⟨mantissa * 2 ^ shift, ?_⟩
  rw [zpow_add₀ two_ne_zero, zpow_natCast, Nat.cast_mul, Nat.cast_pow, Nat.cast_ofNat]
  ring

namespace Ratio

variable {r : Ratio} {number : ℚ}

section Positive

variable (hnumerator : 0 < r.numerator) (hdenominator : 0 < r.denominator)
include hnumerator hdenominator

/-- A number of the format that does not lie above a fraction does not lie above what the fraction
is rounded to. -/
theorem le_nearest (hnumber : Representable number) (hle : number ≤ r.value) :
    number ≤ r.nearest := by
  obtain ⟨mantissa, exponent, hmantissa, hleast, rfl⟩ := hnumber
  rcases le_or_gt r.exponent exponent with hcoarse | hfine
  · obtain ⟨multiple, hmultiple⟩ := exists_multiple mantissa hcoarse
    rw [hmultiple, ← le_div_iff₀ (zpow_pos two_pos _), ← value_shiftDown] at hle
    have hround := le_roundEven (denominator_shiftDown hdenominator _) hle
    rw [hmultiple, nearest]
    gcongr
    exact hround
  · -- The fraction is rounded to steps that are too large for the number, so it is greater.
    have hround := le_mantissa hnumerator hdenominator (hleast.trans_lt hfine)
    calc (mantissa : ℚ) * 2 ^ exponent
      _ ≤ 2 ^ 53 * 2 ^ exponent := by
          gcongr
          exact_mod_cast hmantissa.le
      _ = 2 ^ 52 * 2 ^ (exponent + 1) := by
          rw [zpow_add_one₀ two_ne_zero]
          ring
      _ ≤ 2 ^ 52 * 2 ^ r.exponent := by
          gcongr
          · exact one_le_two
          · exact hfine
      _ ≤ r.nearest := by
          rw [nearest]
          gcongr
          exact_mod_cast hround

/-- A number of the format that does not lie below a fraction does not lie below what the fraction
is rounded to. -/
theorem nearest_le (hnumber : Representable number) (hle : r.value ≤ number) :
    r.nearest ≤ number := by
  obtain ⟨mantissa, exponent, hmantissa, hleast, rfl⟩ := hnumber
  have hcoarse : r.exponent ≤ exponent := by
    have hless : (2 : ℚ) ^ (r.leading + 52) < 2 ^ (exponent + 53) := by
      calc (2 : ℚ) ^ (r.leading + 52)
        _ ≤ mantissa * 2 ^ exponent := (leading_bounds hnumerator hdenominator).1.trans hle
        _ < 2 ^ 53 * 2 ^ exponent := by
            gcongr
            exact_mod_cast hmantissa
        _ = 2 ^ (exponent + 53) := by
            rw [zpow_add₀ two_ne_zero, mul_comm]
            rfl
    have hexponents := (zpow_lt_zpow_iff_right₀ one_lt_two).mp hless
    exact max_le (by omega) hleast
  obtain ⟨multiple, hmultiple⟩ := exists_multiple mantissa hcoarse
  rw [hmultiple, ← div_le_iff₀ (zpow_pos two_pos _), ← value_shiftDown] at hle
  have hround := roundEven_le (denominator_shiftDown hdenominator _) hle
  rw [hmultiple, nearest]
  gcongr
  exact hround

/-- The format is its own nearest. -/
theorem nearest_eq (h : Representable r.value) : r.nearest = r.value :=
  (nearest_le hnumerator hdenominator h le_rfl).antisymm
    (le_nearest hnumerator hdenominator h le_rfl)

end Positive

/-!
## Nearest patterns
-/

/-- The magnitude of the nearest pattern, if there were no greatest one. -/
def nearestMagnitude (r : Ratio) : Nat := (r.exponent + 1074).toNat * 2 ^ 52 + r.mantissa

theorem nearestBits_of_zero (hnumerator : r.numerator = 0) (negative : Bool) :
    nearestBits binary64 negative r = pattern negative 0 := by
  unfold nearestBits
  rw [if_pos hnumerator]
  rfl

theorem nearestBits_eq (hnumerator : 0 < r.numerator) (negative : Bool) :
    nearestBits binary64 negative r =
      pattern negative (min r.nearestMagnitude (2047 * 2 ^ 52)) := by
  unfold nearestBits
  rw [if_neg hnumerator.ne']
  rfl

theorem nearestBits_lt (negative : Bool) (r : Ratio) :
    nearestBits binary64 negative r < 2 ^ 64 := by
  rcases Nat.eq_zero_or_pos r.numerator with hzero | hpositive
  · rw [nearestBits_of_zero hzero, pattern]
    split_ifs <;> omega
  · rw [nearestBits_eq hpositive, pattern]
    split_ifs <;> omega

section Positive

variable (hnumerator : 0 < r.numerator) (hdenominator : 0 < r.denominator)
include hnumerator hdenominator

theorem units_nearestMagnitude : units r.nearestMagnitude * 2 ^ (-1074 : Int) = r.nearest := by
  have hleast : -1074 ≤ r.exponent := le_max_right _ _
  have hstep : ((r.exponent + 1074).toNat : Int) + -1074 = r.exponent := by omega
  rw [nearestMagnitude, units_step (mantissa_le hnumerator hdenominator) fun hpositive =>
    le_mantissa hnumerator hdenominator (by omega)]
  rw [Nat.cast_mul, Nat.cast_pow, Nat.cast_ofNat, mul_assoc, ← zpow_natCast,
    ← zpow_add₀ two_ne_zero, hstep, nearest]

/-- What the nearest pattern stands for, unless it is infinite. -/
theorem value?_nearestBits (negative : Bool) :
    (Binary.ofBits binary64 (nearestBits binary64 negative r)).value? =
      if r.nearestMagnitude < 2047 * 2 ^ 52 then some (signed negative r.nearest) else none := by
  rw [nearestBits_eq hnumerator, value?_ofBits_pattern (by omega)]
  rcases Nat.lt_or_ge r.nearestMagnitude (2047 * 2 ^ 52) with hless | hmore
  · rw [Nat.min_eq_left hless.le, units_nearestMagnitude hnumerator hdenominator]
  · rw [Nat.min_eq_right hmore, if_neg (Nat.lt_irrefl _), if_neg hmore.not_gt]

theorem nearestMagnitude_lt (h : r.value < 2 ^ (1023 : Int)) :
    r.nearestMagnitude < 2047 * 2 ^ 52 := by
  have hmantissa := mantissa_le hnumerator hdenominator
  have hleading : r.leading + 52 < 1023 :=
    (zpow_lt_zpow_iff_right₀ one_lt_two).mp
      ((leading_bounds hnumerator hdenominator).1.trans_lt h)
  unfold nearestMagnitude exponent
  omega

end Positive

end Ratio

/-- A number of the format, of which a fraction is a writing, is what the nearest pattern stands
for. -/
theorem value?_nearestBits_of_representable {r : Ratio} (negative : Bool)
    (hdenominator : 0 < r.denominator) (hnumber : Representable r.value)
    (hsmall : r.value < 2 ^ (1023 : Int)) :
    (Binary.ofBits binary64 (nearestBits binary64 negative r)).value? =
      some (signed negative r.value) := by
  rcases Nat.eq_zero_or_pos r.numerator with hzero | hpositive
  · have hvalue : r.value = 0 := by
      rw [Ratio.value, hzero, Nat.cast_zero, zero_div]
    rw [Ratio.nearestBits_of_zero hzero, value?_ofBits_pattern (by decide), if_pos (by decide),
      units_eq_zero_iff.mpr rfl, hvalue, Nat.cast_zero, zero_mul]
  · rw [Ratio.value?_nearestBits hpositive hdenominator,
      if_pos (Ratio.nearestMagnitude_lt hpositive hdenominator hsmall),
      Ratio.nearest_eq hpositive hdenominator hnumber]

/-!
## Whole numbers
-/

theorem representable_natCast {n : Nat} (h : n ≤ 2 ^ 53) : Representable n := by
  rcases Nat.eq_or_lt_of_le h with rfl | hless
  · exact ⟨1, 53, by decide, by decide, by norm_num⟩
  · exact ⟨n, 0, hless, by decide, by simp⟩

theorem Ratio.value_natCast (n : Nat) : (Ratio.mk n 1).value = n := by
  simp [Ratio.value]

theorem natCast_lt_zpow {n : Nat} (h : n ≤ 2 ^ 53) : (n : ℚ) < 2 ^ (1023 : Int) := by
  calc (n : ℚ)
    _ ≤ 2 ^ (53 : Int) := by exact_mod_cast h
    _ < 2 ^ (1023 : Int) := zpow_lt_zpow_right₀ one_lt_two (by decide)

/-- Up to `2 ^ 53` every whole number is one of the format. -/
theorem value?_nearestBits_natCast {n : Nat} (negative : Bool) (h : n ≤ 2 ^ 53) :
    (Binary.ofBits binary64 (nearestBits binary64 negative ⟨n, 1⟩)).value? =
      some (signed negative n) := by
  have hvalue := Ratio.value_natCast n
  rw [value?_nearestBits_of_representable negative Nat.one_pos, hvalue]
  · rw [hvalue]
    exact representable_natCast h
  · rw [hvalue]
    exact natCast_lt_zpow h

theorem nearestOfInt_lt (n : Int) : nearestOfInt binary64 n < 2 ^ 64 := Ratio.nearestBits_lt _ _

/-- What a number is rounded to does not lie below a number of the format that it reaches. -/
theorem le_of_value?_nearestBits {n : Nat} {negative : Bool} {bound number : ℚ}
    (hbound : Representable bound) (hpositive : 0 < n) (hle : bound ≤ n)
    (h : (Binary.ofBits binary64 (nearestBits binary64 negative ⟨n, 1⟩)).value? =
      some (signed negative number)) : bound ≤ number := by
  rw [Ratio.value?_nearestBits hpositive Nat.one_pos] at h
  split_ifs at h
  have hnearest : Ratio.nearest ⟨n, 1⟩ = number := by
    cases negative <;> simpa [signed] using h
  rw [← hnearest]
  refine Ratio.le_nearest hpositive Nat.one_pos hbound ?_
  rwa [Ratio.value_natCast]

/-- A negative number is not rounded to one without a sign. -/
theorem value?_nearestBits_negative_ne {n number : Nat} (hpositive : 0 < n) :
    (Binary.ofBits binary64 (nearestBits binary64 true ⟨n, 1⟩)).value? ≠ some (number : ℚ) := by
  intro h
  have hsigned : (number : ℚ) = signed true (-number) := by simp [signed]
  rw [hsigned] at h
  have hone := le_of_value?_nearestBits (@representable_natCast 1 (by decide)) hpositive
    (by exact_mod_cast hpositive) h
  have hsign : ((1 : Nat) : ℚ) ≤ 0 := hone.trans (neg_nonpos.mpr (Nat.cast_nonneg number))
  norm_num at hsign

/-- Beyond its greatest neighbour no number is rounded to `2 ^ 53` or less. -/
theorem value?_nearestBits_ne {n number : Nat} (hnumber : number ≤ 2 ^ 53)
    (hlarge : 2 ^ 53 + 2 ≤ n) :
    (Binary.ofBits binary64 (nearestBits binary64 false ⟨n, 1⟩)).value? ≠ some (number : ℚ) := by
  intro h
  have hnext : Representable ((2 ^ 53 + 2 : Nat) : ℚ) :=
    ⟨2 ^ 52 + 1, 1, by decide, by decide, by norm_num⟩
  have hle := le_of_value?_nearestBits hnext (by omega) (by exact_mod_cast hlarge) h
  have hcast : 2 ^ 53 + 2 ≤ number := by exact_mod_cast hle
  omega

/-- A whole number up to `2 ^ 53` is nearest to no other whole number, but for the greatest one,
which is nearest to its successor too. -/
theorem value?_nearestOfInt_iff {n : Int} {number : Nat} (h : number ≤ 2 ^ 53) :
    (Binary.ofBits binary64 (nearestOfInt binary64 n)).value? = some (number : ℚ) ↔
      n = number ∨ number = 2 ^ 53 ∧ n = 2 ^ 53 + 1 := by
  unfold nearestOfInt
  rcases lt_or_ge n 0 with hnegative | hpositive
  · rw [decide_eq_true hnegative, iff_false_left
      (value?_nearestBits_negative_ne (Int.natAbs_pos.mpr hnegative.ne))]
    omega
  · obtain ⟨magnitude, rfl⟩ := Int.eq_ofNat_of_zero_le hpositive
    rw [decide_eq_false hpositive.not_gt, Int.natAbs_natCast]
    rcases Nat.lt_trichotomy magnitude (2 ^ 53 + 1) with hless | rfl | hmore
    · rw [value?_nearestBits_natCast false (by omega), Option.some_inj, signed,
        if_neg Bool.false_ne_true, Nat.cast_inj]
      omega
    · have hround : nearestBits binary64 false ⟨2 ^ 53 + 1, 1⟩ =
          nearestBits binary64 false ⟨2 ^ 53, 1⟩ := by decide +kernel
      rw [hround, value?_nearestBits_natCast false le_rfl, Option.some_inj, signed,
        if_neg Bool.false_ne_true, Nat.cast_inj]
      omega
    · rw [iff_false_left (value?_nearestBits_ne h hmore)]
      omega

/-!
## Wider formats
-/

theorem Ratio.value_scaled (n : Nat) (exponent : Int) :
    (scaled n exponent).value = n * 2 ^ exponent := by
  cases exponent with
  | ofNat e => simp [scaled, value]
  | negSucc e => simp [scaled, value, zpow_negSucc, div_eq_mul_inv]

theorem Ratio.denominator_scaled (n : Nat) (exponent : Int) :
    0 < (scaled n exponent).denominator := by
  cases exponent with
  | ofNat e => exact Nat.one_pos
  | negSucc e => exact Nat.two_pow_pos (e + 1)

theorem ofBits_binary32_bounds {bits mantissa : Nat} {negative narrow : Bool} {exponent : Int}
    (h : Binary.ofBits binary32 bits = .finite negative mantissa exponent narrow) :
    mantissa < 2 ^ 24 ∧ -149 ≤ exponent ∧ exponent ≤ 104 := by
  have hread : Binary.ofBits binary32 bits =
      if bits / 2 ^ 23 % 2 ^ 8 = 255 then
        if bits % 2 ^ 23 = 0 then .infinity (bits / 2 ^ 31 % 2 == 1) else .nan
      else if bits / 2 ^ 23 % 2 ^ 8 = 0 then
        .finite (bits / 2 ^ 31 % 2 == 1) (bits % 2 ^ 23) (-149) false
      else .finite (bits / 2 ^ 31 % 2 == 1) (2 ^ 23 + bits % 2 ^ 23)
        ((bits / 2 ^ 23 % 2 ^ 8 : Nat) - 150)
        (bits % 2 ^ 23 == 0 && bits / 2 ^ 23 % 2 ^ 8 != 1) := rfl
  rw [hread] at h
  split_ifs at h <;> injection h <;> omega

/-- What is not finite has a pattern behind those of all finite numbers. -/
theorem exists_widen_eq {bits : Nat} (h : (Binary.ofBits binary32 bits).value? = none) :
    ∃ negative magnitude, 2047 * 2 ^ 52 ≤ magnitude ∧ magnitude < 2 ^ 63 ∧
      widen bits = pattern negative magnitude := by
  unfold widen
  cases hread : Binary.ofBits binary32 bits with
  | nan =>
      refine ⟨decide (bits / 0x80000000 % 2 = 1),
        2047 * 2 ^ 52 + (bits % 0x400000 + 0x400000) * 0x20000000, by omega, by omega, ?_⟩
      have hinfinity : binary64.infinityBits = 2047 * 2 ^ 52 := rfl
      simp only [hinfinity, pattern, decide_eq_true_eq]
      split_ifs <;> omega
  | infinity negative => exact ⟨negative, 2047 * 2 ^ 52, by decide, by decide, rfl⟩
  | finite =>
      rw [hread] at h
      cases h

/-- A binary32 number keeps its value as a binary64 number. -/
theorem value?_ofBits_widen (bits : Nat) :
    (Binary.ofBits binary64 (widen bits)).value? = (Binary.ofBits binary32 bits).value? := by
  cases hvalue : (Binary.ofBits binary32 bits).value? with
  | none =>
      obtain ⟨negative, magnitude, hlarge, hlt, hwiden⟩ := exists_widen_eq hvalue
      rw [hwiden, value?_ofBits_pattern hlt, if_neg hlarge.not_gt]
  | some number =>
      obtain ⟨negative, mantissa, exponent, narrow, hread, rfl⟩ := Binary.exists_finite hvalue
      obtain ⟨hmantissa, hleast, hmost⟩ := ofBits_binary32_bounds hread
      have hscaled := Ratio.value_scaled mantissa exponent
      simp only [widen, hread]
      rw [value?_nearestBits_of_representable negative (Ratio.denominator_scaled _ _), hscaled]
      · exact ⟨mantissa, exponent, by omega, by omega, hscaled⟩
      · rw [hscaled]
        calc (mantissa : ℚ) * 2 ^ exponent
          _ ≤ 2 ^ (24 : Int) * 2 ^ (104 : Int) := by
              gcongr
              · exact_mod_cast hmantissa.le
              · exact one_le_two
          _ = 2 ^ (128 : Int) := by
              rw [← zpow_add₀ two_ne_zero]
              rfl
          _ < 2 ^ (1023 : Int) := zpow_lt_zpow_right₀ one_lt_two (by decide)

theorem widen_lt (bits : Nat) : widen bits < 2 ^ 64 := by
  cases hvalue : (Binary.ofBits binary32 bits).value? with
  | none =>
      obtain ⟨negative, magnitude, -, hlt, hwiden⟩ := exists_widen_eq hvalue
      rw [hwiden, pattern]
      split_ifs <;> omega
  | some number =>
      obtain ⟨negative, mantissa, exponent, narrow, hread, -⟩ := Binary.exists_finite hvalue
      simp only [widen, hread]
      exact Ratio.nearestBits_lt _ _

end AssemblyBrowser.Decimal
