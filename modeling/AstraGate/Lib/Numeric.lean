import Mathlib.Algebra.Order.Archimedean.Basic
import Mathlib.Algebra.Order.Round
import Mathlib.Data.Rat.Floor
import Mathlib.Tactic.FieldSimp
import Mathlib.Tactic.Linarith
import Mathlib.Tactic.Ring

-- Numbers with a fixed count of decimals, as a column of type `NUMERIC(digits, scale)` holds them.
namespace Numeric

variable {K : Type*} [Field K] [LinearOrder K] [IsStrictOrderedRing K] [FloorRing K]

-- Rounds to the nearest integer, and halves away from zero.
def roundAway (x : K) : ℤ :=
  if 0 ≤ x then round x else -round (-x)

-- Rounds to the nearest integer, and halves to the even one.
def roundEven (x : K) : ℤ :=
  let n := ⌊x⌋
  if x - n < 1 / 2 ∨ x - n = 1 / 2 ∧ Even n then n else n + 1

-- `Decimal.quantize` to `scale` decimals.
def quantizeEven (scale : ℕ) (x : K) : K :=
  roundEven (x * 10 ^ scale) / 10 ^ scale

-- `y` is the number with `scale` decimals that is nearest to `x`, or, right between two of them,
-- the one with the even last digit.
def RoundsHalfEven (scale : ℕ) (x y : K) : Prop :=
  ∃ n : ℤ, y = n / 10 ^ scale ∧
    (|x * 10 ^ scale - n| < 1 / 2 ∨ |x * 10 ^ scale - n| = 1 / 2 ∧ Even n)

-- What a column with `scale` decimals stores when it is assigned `x`.
def quantize (scale : ℕ) (x : K) : K :=
  roundAway (x * 10 ^ scale) / 10 ^ scale

def Fits (scale : ℕ) (x : K) : Prop :=
  ∃ n : ℤ, x * 10 ^ scale = n

variable {x y d t : K} {digits scale : ℕ}

-- The column takes `x`, once it is rounded: it has no more digits before the point than there are.
def Takes (digits scale : ℕ) (x : K) : Prop :=
  |quantize scale x| < 10 ^ (digits - scale)

instance : Decidable (Takes digits scale x) :=
  inferInstanceAs (Decidable (_ < _))

omit [LinearOrder K] [IsStrictOrderedRing K] [FloorRing K] in
theorem Fits.of_le (h : Fits scale₁ x) (hs : scale₁ ≤ scale₂) : Fits scale₂ x := by
  have ⟨n, hn⟩ := h
  refine ⟨n * 10 ^ (scale₂ - scale₁), ?_⟩
  push_cast
  rw [← hn, mul_assoc, ← pow_add, Nat.add_sub_cancel' hs]

@[simp]
theorem roundAway_intCast (n : ℤ) : roundAway (n : K) = n := by
  unfold roundAway
  split
  · exact round_intCast n
  · rw [← Int.cast_neg, round_intCast, neg_neg]

@[simp]
theorem roundEven_intCast (n : ℤ) : roundEven (n : K) = n := by
  simp [roundEven]

theorem roundEven_spec (x : K) :
    |x - roundEven x| < 1 / 2 ∨ |x - roundEven x| = 1 / 2 ∧ Even (roundEven x) := by
  have hl := Int.floor_le x
  have hu := Int.lt_floor_add_one x
  unfold roundEven
  dsimp only
  split
  case isTrue h =>
    rw [abs_of_nonneg (sub_nonneg.mpr hl)]
    exact h
  case isFalse h =>
    have ⟨hh, he⟩ := not_or.mp h
    have ha : |x - ((⌊x⌋ + 1 : ℤ) : K)| = ⌊x⌋ + 1 - x := by
      push_cast
      rw [abs_sub_comm, abs_of_nonneg (sub_nonneg.mpr hu.le)]
    rw [ha]
    obtain hh | hh := lt_or_eq_of_le (not_lt.mp hh)
    · exact .inl (by linarith)
    · refine .inr ⟨by linarith, ?_⟩
      rw [Int.even_add_one]
      exact fun hf => he ⟨hh.symm, hf⟩

theorem abs_roundEven_sub_le (x : K) : |roundEven x - x| ≤ 1 / 2 := by
  rw [abs_sub_comm]
  cases roundEven_spec x
  case inl h => exact h.le
  case inr h => exact h.left.le

theorem roundsHalfEven_quantizeEven (scale : ℕ) (x : K) :
    RoundsHalfEven scale x (quantizeEven scale x) :=
  ⟨_, rfl, roundEven_spec _⟩

theorem roundAway_mono (h : x ≤ y) : roundAway x ≤ roundAway y := by
  have hr : ∀ {x y : K}, x ≤ y → round x ≤ round y := by
    intro x y h
    rw [round_eq, round_eq]
    exact Int.floor_mono (by linarith)
  have hz : ∀ {x : K}, 0 ≤ x → 0 ≤ round x := by
    intro x h
    exact round_zero (α := K) ▸ hr h
  unfold roundAway
  split
  case isTrue hx =>
    rw [if_pos (hx.trans h)]
    exact hr h
  case isFalse hx =>
    have hx := hz (neg_nonneg.mpr (not_le.mp hx).le)
    split
    case isTrue hy  => linarith [hz hy]
    case isFalse hy => exact neg_le_neg (hr (neg_le_neg h))

theorem roundAway_neg (x : K) : roundAway (-x) = -roundAway x := by
  obtain hx | rfl | hx := lt_trichotomy x 0
  · rw [roundAway, roundAway, if_pos (neg_nonneg.mpr hx.le), if_neg hx.not_ge, neg_neg]
  · simp [roundAway]
  · rw [roundAway, roundAway, if_neg (neg_nonneg.not.mpr hx.not_ge), if_pos hx.le, neg_neg]

-- Differences of integers that stay above zero round as if the minuend were not there.
theorem roundAway_sub (n : ℤ) (h : 0 ≤ n - x) : roundAway (n - x) = n + round (-x) := by
  rw [roundAway, if_pos h, sub_eq_add_neg, round_intCast_add]

theorem round_eq_iff {n : ℤ} : round x = n ↔ n - 1 / 2 ≤ x ∧ x < n + 1 / 2 := by
  rw [round_eq, Int.floor_eq_iff]
  constructor <;> intro ⟨h₁, h₂⟩ <;> constructor <;> linarith

theorem roundAway_add_eq_iff_of_nonneg (n : ℤ) (t : K) (hx : 0 ≤ n + t) :
    roundAway (n + t) = n ↔ |t| < 1 / 2 ∨ t = 1 / 2 ∧ n < 0 ∨ t = -(1 / 2) ∧ 0 < n := by
  rw [roundAway, if_pos hx, round_eq_iff]
  constructor
  case mp =>
    intro ⟨hl, hu⟩
    by_cases ht : t = -(1 / 2)
    case pos =>
      refine .inr <| .inr ⟨ht, ?_⟩
      have : (0 : K) < n := by linarith
      exact_mod_cast this
    case neg =>
      have hl : -(1 / 2) < t := lt_of_le_of_ne (by linarith) (Ne.symm ht)
      exact .inl <| abs_lt.mpr ⟨hl, by linarith⟩
  case mpr =>
    rintro (ht | ⟨ht, hn⟩ | ⟨ht, hn⟩)
    · have ⟨hl, hu⟩ := abs_lt.mp ht
      constructor <;> linarith
    · have : (n : K) ≤ -1 := by exact_mod_cast Int.le_sub_one_of_lt hn
      linarith
    · constructor <;> linarith

-- Half a unit is rounded back to the integer `n` only from the far side of zero.
theorem roundAway_add_eq_iff (n : ℤ) (t : K) :
    roundAway (n + t) = n ↔ |t| < 1 / 2 ∨ t = 1 / 2 ∧ n < 0 ∨ t = -(1 / 2) ∧ 0 < n := by
  by_cases hx : 0 ≤ n + t
  case pos => exact roundAway_add_eq_iff_of_nonneg n t hx
  case neg =>
    have hc : ((-n : ℤ) : K) + -t = -(n + t) := by push_cast; ring
    have hs := roundAway_add_eq_iff_of_nonneg (-n) (-t) (by rw [hc]; linarith)
    rw [hc, roundAway_neg, neg_inj, abs_neg, neg_inj, neg_eq_iff_eq_neg, neg_lt_zero, neg_pos] at hs
    rw [hs]
    exact or_congr_right or_comm

theorem ten_pow_pos (scale : ℕ) : (0 : K) < 10 ^ scale :=
  pow_pos (by norm_num) scale

theorem fits_quantize (scale : ℕ) (x : K) : Fits scale (quantize scale x) :=
  ⟨roundAway (x * 10 ^ scale), div_mul_cancel₀ _ (ten_pow_pos scale).ne'⟩

theorem quantize_eq_self (h : Fits scale x) : quantize scale x = x := by
  have ⟨n, hn⟩ := h
  rw [quantize, hn, roundAway_intCast, ← hn]
  exact mul_div_cancel_right₀ x (ten_pow_pos scale).ne'

theorem takes_iff_of_fits (h : Fits scale x) :
    Takes digits scale x ↔ |x| < 10 ^ (digits - scale) := by
  rw [Takes, quantize_eq_self h]

@[simp]
theorem quantize_zero : quantize scale (0 : K) = 0 := by
  simp [quantize, roundAway]

theorem quantize_neg (scale : ℕ) (x : K) : quantize scale (-x) = -quantize scale x := by
  rw [quantize, quantize, neg_mul, roundAway_neg, Int.cast_neg, neg_div]

theorem quantize_mono (h : x ≤ y) : quantize scale x ≤ quantize scale y := by
  have hs := ten_pow_pos (K := K) scale
  have hr := roundAway_mono (mul_le_mul_of_nonneg_right h hs.le)
  exact div_le_div_of_nonneg_right (Int.cast_le.mpr hr) hs.le

theorem abs_quantize_le (h : Fits scale y) (hx : |x| ≤ y) : |quantize scale x| ≤ y := by
  have ⟨hl, hu⟩ := abs_le.mp hx
  rw [← quantize_eq_self h]
  exact abs_le.mpr ⟨quantize_neg scale y ▸ quantize_mono hl, quantize_mono hu⟩

theorem le_quantize_iff (h : Fits scale x) (hy : x ≤ y) : x ≤ quantize scale y :=
  quantize_eq_self h ▸ quantize_mono hy

omit [LinearOrder K] [IsStrictOrderedRing K] [FloorRing K] in
theorem Fits.sub (hx : Fits scale x) (hy : Fits scale y) : Fits scale (x - y) := by
  have ⟨n, hn⟩ := hx
  have ⟨m, hm⟩ := hy
  exact ⟨n - m, by rw [sub_mul, hn, hm, Int.cast_sub]⟩

omit [LinearOrder K] [IsStrictOrderedRing K] [FloorRing K] in
theorem Fits.add (hx : Fits scale x) (hy : Fits scale y) : Fits scale (x + y) := by
  have ⟨n, hn⟩ := hx
  have ⟨m, hm⟩ := hy
  exact ⟨n + m, by rw [add_mul, hn, hm, Int.cast_add]⟩

-- What a stored number loses when `d` is taken from it, as long as it does not become negative.
def drift (scale : ℕ) (d : K) : K :=
  (round (-(d * 10 ^ scale)) + d * 10 ^ scale) / 10 ^ scale

theorem quantize_sub (h : Fits scale x) (hd : d ≤ x) :
    quantize scale (x - d) = x - d + drift scale d := by
  have ⟨n, hn⟩ := h
  have hs := ten_pow_pos (K := K) scale
  have hx : x = n / 10 ^ scale := by rw [← hn, mul_div_cancel_right₀ x hs.ne']
  have hp : 0 ≤ n - d * 10 ^ scale := by
    rw [← hn, ← sub_mul]
    exact mul_nonneg (sub_nonneg.mpr hd) hs.le
  rw [quantize, sub_mul, hn, roundAway_sub n hp, drift, hx]
  push_cast
  field_simp
  ring

theorem drift_eq_zero_iff : drift scale d = 0 ↔ Fits scale d := by
  have hs := ten_pow_pos (K := K) scale
  rw [drift, div_eq_zero_iff, or_iff_left hs.ne', add_eq_zero_iff_neg_eq]
  constructor
  case mp  => exact fun h => ⟨-round (-(d * 10 ^ scale)), by rw [Int.cast_neg, h]⟩
  case mpr =>
    intro ⟨n, hn⟩
    rw [hn, ← Int.cast_neg n, round_intCast, Int.cast_neg, neg_neg]

theorem neg_one_le_drift (scale : ℕ) (d : K) : -1 ≤ drift scale d := by
  have hs : (1 : K) ≤ 10 ^ scale := one_le_pow₀ (by norm_num)
  have hr := le_of_abs_le <| abs_sub_round (-(d * 10 ^ scale))
  rw [drift, le_div_iff₀ (ten_pow_pos scale)]
  linarith

-- Half a unit of the last decimal.
def halfUnit (scale : ℕ) : K :=
  1 / 2 / 10 ^ scale

-- The stored number `x` is stored again with the error `t`, and the error is rounded away.
def Absorbs (scale : ℕ) (x t : K) : Prop :=
  |t| < halfUnit scale ∨ t = halfUnit scale ∧ x < 0 ∨ t = -halfUnit scale ∧ 0 < x

theorem Absorbs.abs_le (h : Absorbs scale x t) : |t| ≤ halfUnit scale := by
  have hp : (0 : K) ≤ halfUnit scale := div_nonneg (by norm_num) (ten_pow_pos scale).le
  obtain h | ⟨rfl, _⟩ | ⟨rfl, _⟩ := h
  · exact h.le
  · rw [abs_of_nonneg hp]
  · rw [abs_neg, abs_of_nonneg hp]

-- The number is right between two stored ones.
def Halfway (scale : ℕ) (x : K) : Prop :=
  ∃ n : ℤ, x * 10 ^ scale = n + 1 / 2

theorem quantize_add_eq_iff (h : Fits scale x) :
    quantize scale (x + t) = x ↔ Absorbs scale x t := by
  have ⟨n, hn⟩ := h
  have hs := ten_pow_pos (K := K) scale
  have hp : 0 < x ↔ 0 < n := by rw [← mul_pos_iff_of_pos_right hs, hn, Int.cast_pos]
  have hm : x < 0 ↔ n < 0 := by
    rw [← not_le, ← mul_nonneg_iff_of_pos_right hs, hn, Int.cast_nonneg_iff, not_le]
  have hq : quantize scale (x + t) = x ↔ roundAway (n + t * 10 ^ scale) = n := by
    rw [quantize, add_mul, hn, div_eq_iff hs.ne', hn, Int.cast_inj]
  have ha : |t| < halfUnit scale ↔ |t * 10 ^ scale| < 1 / 2 := by
    rw [halfUnit, lt_div_iff₀ hs, abs_mul, abs_of_pos hs]
  have hh : t = halfUnit scale ↔ t * 10 ^ scale = 1 / 2 := by
    rw [halfUnit, eq_div_iff hs.ne']
  have hh' : t = -halfUnit scale ↔ t * 10 ^ scale = -(1 / 2) := by
    rw [halfUnit, ← neg_div, eq_div_iff hs.ne']
  rw [hq, roundAway_add_eq_iff, Absorbs, ha, hh, hh', hp, hm]

theorem neg_halfUnit_lt_drift (scale : ℕ) (d : K) : -halfUnit scale < drift scale d := by
  have hs := ten_pow_pos (K := K) scale
  have hr := (round_eq_iff.mp (rfl : round (-(d * 10 ^ scale)) = _)).right
  rw [halfUnit, drift, ← neg_div, div_lt_div_iff_of_pos_right hs]
  linarith

theorem drift_le_halfUnit (scale : ℕ) (d : K) : drift scale d ≤ halfUnit scale := by
  have hs := ten_pow_pos (K := K) scale
  have hr := (round_eq_iff.mp (rfl : round (-(d * 10 ^ scale)) = _)).left
  rw [halfUnit, drift, div_le_div_iff_of_pos_right hs]
  linarith

theorem drift_eq_halfUnit_iff : drift scale d = halfUnit scale ↔ Halfway scale d := by
  have hs := ten_pow_pos (K := K) scale
  rw [halfUnit, drift, div_left_inj' hs.ne']
  constructor
  case mp =>
    intro h
    refine ⟨-round (-(d * 10 ^ scale)), ?_⟩
    rw [Int.cast_neg]
    linarith
  case mpr =>
    intro ⟨n, hn⟩
    have hr : round (-(d * 10 ^ scale)) = -n := by
      rw [round_eq_iff, hn, Int.cast_neg]
      constructor <;> linarith
    rw [hr, hn, Int.cast_neg]
    ring

theorem absorbs_drift_iff : Absorbs scale x (drift scale d) ↔ ¬Halfway scale d ∨ x < 0 := by
  have hl := neg_halfUnit_lt_drift scale d
  rw [← drift_eq_halfUnit_iff, Absorbs]
  by_cases hh : drift scale d = halfUnit scale
  case pos =>
    have hp : (0 : K) < halfUnit scale := div_pos (by norm_num) (ten_pow_pos scale)
    have hn : (halfUnit scale : K) ≠ -halfUnit scale := fun h => by linarith
    simp [hh, abs_of_pos hp, hn]
  case neg =>
    have hu := lt_of_le_of_ne (drift_le_halfUnit scale d) hh
    simp [hh, abs_lt, hl, hu]

-- Takes the numbers `ds` from a stored number one after another.
def deduct (scale : ℕ) (x : K) (ds : List K) : K :=
  ds.foldl (fun x d => quantize scale (x - d)) x

theorem deduct_eq_sub_sum (h : Fits scale x) (hd : ∀ d ∈ ds, Fits scale d) :
    deduct scale x ds = x - ds.sum := by
  induction ds generalizing x
  case nil => simp [deduct]
  case cons d ds ih =>
    have hx := h.sub (hd d List.mem_cons_self)
    have hr := ih hx (fun d hd' => hd d <| List.mem_cons_of_mem _ hd')
    rw [deduct, List.foldl_cons, quantize_eq_self hx]
    rw [deduct] at hr
    rw [hr, List.sum_cons]
    ring

theorem deduct_replicate {n : ℕ} (h : Fits scale x) (hd : 0 ≤ d) (hx : n * (d + 1) ≤ x) :
    deduct scale x (List.replicate n d) = x - n * d + n * drift scale d := by
  induction n generalizing x
  case zero => simp [deduct]
  case succ n ih =>
    push_cast at hx ⊢
    have hn : (0 : K) ≤ n * (d + 1) := mul_nonneg n.cast_nonneg (by linarith)
    have hq := quantize_sub h (by linarith : d ≤ x)
    have hf : Fits scale (x - d + drift scale d) := hq ▸ fits_quantize scale (x - d)
    have hr := ih hf (by linarith [neg_one_le_drift scale d])
    rw [deduct, List.replicate_succ, List.foldl_cons, hq]
    rw [deduct] at hr
    rw [hr]
    ring

-- Numbers from a set can be taken from every stored number without the roundings adding up exactly
-- if none of them needs to be rounded.
theorem forall_abs_deduct_lt_iff {S : Set K} (hS : ∀ d ∈ S, 0 ≤ d) :
    (∀ x : K, Fits scale x → ∀ ds : List K, (∀ d ∈ ds, d ∈ S) →
      |deduct scale x ds - (x - ds.sum)| < 1 / 10 ^ scale) ↔ ∀ d ∈ S, Fits scale d := by
  have hs := ten_pow_pos (K := K) scale
  constructor
  case mp =>
    intro h d hd
    by_contra hn
    have hn := abs_pos.mpr <| drift_eq_zero_iff.not.mpr hn
    have ⟨n, hn⟩ := exists_nat_ge (1 / 10 ^ scale / |drift scale d|)
    have hn := (div_le_iff₀ ‹_›).mp hn
    let z : ℤ := ⌈n * (d + 1)⌉
    have hf : Fits scale (z : K) := ⟨z * 10 ^ scale, by push_cast; rfl⟩
    have hz : n * (d + 1) ≤ (z : K) := Int.le_ceil _
    have hl := h z hf (List.replicate n d) (fun d' hd' => List.eq_of_mem_replicate hd' ▸ hd)
    rw [deduct_replicate hf (hS d hd) hz, List.sum_replicate, nsmul_eq_mul, add_sub_cancel_left,
      abs_mul, Nat.abs_cast] at hl
    exact hn.not_gt hl
  case mpr =>
    intro h x hx ds hds
    rw [deduct_eq_sub_sum hx (fun d hd => h d (hds d hd)), sub_self, abs_zero]
    exact one_div_pos.mpr hs

end Numeric
