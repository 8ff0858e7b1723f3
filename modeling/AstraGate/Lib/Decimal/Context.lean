import AstraGate.Lib.Decimal
import AstraGate.Lib.Numeric
import Mathlib.Data.Int.Log

-- The rounding of a result to the precision of the context.
namespace Decimal

section Context

variable {digits : ℕ} {q : ℚ}

-- Numbers that are spelled with this many digits, apart from zeros at either end.
def Precise (digits : ℕ) (q : ℚ) : Prop :=
  ∃ m e : ℤ, |m| < 10 ^ digits ∧ q = m * 10 ^ e

-- What a context with this precision makes of the result of an operation. The lower bound of the
-- exponent is left out.
def inContext (digits : ℕ) (q : ℚ) : ℚ :=
  let unit : ℚ := 10 ^ (Int.log 10 |q| + 1 - digits)
  Numeric.roundEven (q / unit) * unit

-- The result of an operation, which raises `Overflow` behind the largest exponent.
def operate (digits : ℕ) (q : ℚ) : Option ℚ :=
  let result := inContext digits q
  if Int.log 10 |result| ≤ 999999 then some result else none

theorem precise_of_fits (h : Numeric.Fits scale q) (hq : |q| < 10 ^ whole)
    (hd : whole + scale ≤ digits) : Precise digits q := by
  have ⟨n, hn⟩ := h
  have hs : (0 : ℚ) < 10 ^ scale := by positivity
  have hm : |(n : ℚ)| < 10 ^ digits := by
    rw [← hn, abs_mul, abs_of_pos hs]
    calc
      _ < 10 ^ whole * 10 ^ scale := mul_lt_mul_of_pos_right hq hs
      _ = 10 ^ (whole + scale)    := (pow_add 10 whole scale).symm
      _ ≤ 10 ^ digits             := pow_le_pow_right₀ (by norm_num) hd
  refine ⟨n, -scale, by exact_mod_cast hm, ?_⟩
  rw [← hn, zpow_neg, zpow_natCast, mul_inv_cancel_right₀ hs.ne']

theorem inContext_eq_self (h : Precise digits q) : inContext digits q = q := by
  have ⟨m, e, hm, hq⟩ := h
  by_cases hz : q = 0
  case pos =>
    have hr := Numeric.roundEven_intCast (K := ℚ) 0
    rw [Int.cast_zero] at hr
    rw [inContext, hz, zero_div, hr, Int.cast_zero, zero_mul]
  case neg =>
    have hp : (0 : ℚ) < 10 ^ e := zpow_pos (by decide) e
    have hm : (|m| : ℚ) < 10 ^ (digits : ℤ) := by exact_mod_cast hm
    have hlt : |q| < 10 ^ (digits + e) := by
      rw [hq, abs_mul, abs_of_pos hp, zpow_add₀ (by decide)]
      exact mul_lt_mul_of_pos_right hm hp
    have hlog := (Int.lt_zpow_iff_log_lt (b := 10) (by decide) (abs_pos.mpr hz)).mp hlt
    unfold inContext
    generalize hs : Int.log 10 |q| + 1 - digits = s
    have ⟨k, hk⟩ : ∃ k : ℕ, e = k + s := ⟨(e - s).toNat, by omega⟩
    have hu : (10 : ℚ) ^ s ≠ 0 := zpow_ne_zero s (by decide)
    have hn : q / 10 ^ s = ((m * 10 ^ k : ℤ) : ℚ) := by
      rw [div_eq_iff hu, hq, hk, zpow_add₀ (by decide)]
      push_cast
      rw [zpow_natCast, mul_assoc]
    dsimp only
    rw [hn, Numeric.roundEven_intCast, ← hn, div_mul_cancel₀ _ hu]

-- A result is off by half a unit of its last digit at most.
theorem abs_inContext_sub_le (digits : ℕ) (q : ℚ) :
    |inContext digits q - q| ≤ |q| * (10 ^ (1 - digits : ℤ) / 2) := by
  by_cases hq : q = 0
  case pos => rw [hq, inContext_eq_self ⟨0, 0, by positivity, by simp⟩]; simp
  case neg =>
    have hl : (10 : ℚ) ^ Int.log 10 |q| ≤ |q| := by
      exact_mod_cast Int.zpow_log_le_self (b := 10) (by decide) (abs_pos.mpr hq)
    have hz : (0 : ℚ) < 10 ^ (1 - digits : ℤ) := zpow_pos (by decide) _
    unfold inContext
    rw [add_sub_assoc, zpow_add₀ (by decide)]
    generalize hu : (10 : ℚ) ^ Int.log 10 |q| * 10 ^ (1 - digits : ℤ) = unit
    have hp : 0 < unit := hu ▸ mul_pos (zpow_pos (by decide) _) hz
    have hs : Numeric.roundEven (q / unit) * unit - q =
        (Numeric.roundEven (q / unit) - q / unit) * unit := by
      rw [sub_mul, div_mul_cancel₀ _ hp.ne']
    dsimp only
    rw [hs, abs_mul, abs_of_pos hp]
    calc
      _ ≤ 1 / 2 * unit                                          :=
        mul_le_mul_of_nonneg_right (Numeric.abs_roundEven_sub_le _) hp.le
      _ = 10 ^ Int.log 10 |q| * (10 ^ (1 - digits : ℤ) / 2) := by rw [← hu]; ring
      _ ≤ _ := mul_le_mul_of_nonneg_right hl (by positivity)

end Context
end Decimal
