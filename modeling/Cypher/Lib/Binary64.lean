import Mathlib.Data.Int.Log
import Mathlib.Data.Rat.Floor
import Mathlib.Tactic.Linarith
import Mathlib.Tactic.NormNum
import Mathlib.Tactic.Ring

/-!
# Rounding of rationals to binary64

`fl q` is the binary64 number nearest to `q`, ties to even. The exponent is not bounded, so the
results below hold of the machine's arithmetic while no operation overflows or underflows. An
operation of the machine is the exact operation followed by `fl`; what its users need of it is that
`fl` is monotone, keeps integers below `2 ^ 53`, and has a relative error of at most `roundoff`.
-/

namespace Cypher.Lib

/-- Round to the nearest integer, ties to even. -/
def roundEven (q : ℚ) : ℤ :=
  if q - ⌊q⌋ < 1 / 2 then ⌊q⌋
  else if 1 / 2 < q - ⌊q⌋ then ⌊q⌋ + 1
  else if ⌊q⌋ % 2 = 0 then ⌊q⌋ else ⌊q⌋ + 1

/-- The distance of neighbouring doubles at the size of `q`. -/
def ulp (q : ℚ) : ℚ :=
  2 ^ (Int.log 2 |q| - 52)

def fl (q : ℚ) : ℚ :=
  roundEven (q / ulp q) * ulp q

/-- Half the distance of neighbouring doubles, relative to their size. -/
def roundoff : ℚ :=
  1 / 2 ^ 53

/-! ## Rounding to an integer -/

theorem roundEven_error (q : ℚ) : |(roundEven q : ℚ) - q| ≤ 1 / 2 := by
  have hfloor := Int.floor_le q
  have hlt := Int.lt_floor_add_one q
  unfold roundEven
  rw [abs_le]
  split_ifs <;> push_cast <;> constructor <;> linarith

theorem roundEven_cases (q : ℚ) : roundEven q = ⌊q⌋ ∨ roundEven q = ⌊q⌋ + 1 := by
  unfold roundEven
  split_ifs <;> simp

theorem roundEven_intCast (n : ℤ) : roundEven n = n := by
  simp [roundEven]

theorem roundEven_mono {q r : ℚ} (h : q ≤ r) : roundEven q ≤ roundEven r := by
  rcases (Int.floor_le_floor h).lt_or_eq with hlt | heq
  · have hq : roundEven q ≤ ⌊q⌋ + 1 := by rcases roundEven_cases q with h | h <;> omega
    have hr : ⌊r⌋ ≤ roundEven r := by rcases roundEven_cases r with h | h <;> omega
    omega
  · -- in one unit interval the larger number is rounded up whenever the smaller one is
    unfold roundEven
    rw [heq]
    split_ifs <;> first | omega | (exfalso; linarith)

/-! ## Rounding to 53 bits -/

theorem ulp_pos (q : ℚ) : 0 < ulp q :=
  zpow_pos (by norm_num) _

theorem ulp_mul_two_pow_le {q : ℚ} (h : q ≠ 0) : 2 ^ 52 * ulp q ≤ |q| := by
  have hlog := Int.zpow_log_le_self (b := 2) (r := |q|) (by norm_num) (abs_pos.mpr h)
  have hulp : (2 : ℚ) ^ 52 * ulp q = 2 ^ Int.log 2 |q| := by
    rw [ulp, zpow_sub₀ (by norm_num)]
    norm_num
    ring
  rw [hulp]
  exact_mod_cast hlog

theorem lt_ulp_mul_two_pow (q : ℚ) : |q| < 2 ^ 53 * ulp q := by
  have hlog := Int.lt_zpow_succ_log_self (b := 2) (by norm_num) |q|
  have hulp : (2 : ℚ) ^ 53 * ulp q = 2 ^ (Int.log 2 |q| + 1) := by
    rw [ulp, zpow_sub₀ (by norm_num), zpow_add₀ (by norm_num)]
    norm_num
    ring
  rw [hulp]
  exact_mod_cast hlog

theorem fl_error (q : ℚ) : |fl q - q| ≤ roundoff * |q| := by
  rcases eq_or_ne q 0 with rfl | hq
  · simp [fl, roundEven]
  · have hpos := ulp_pos q
    have hround := roundEven_error (q / ulp q)
    have hscale : fl q - q = ((roundEven (q / ulp q) : ℚ) - q / ulp q) * ulp q := by
      rw [fl, sub_mul, div_mul_cancel₀ q hpos.ne']
    have hmant := ulp_mul_two_pow_le hq
    rw [hscale, abs_mul, abs_of_pos hpos]
    calc |(roundEven (q / ulp q) : ℚ) - q / ulp q| * ulp q ≤ 1 / 2 * ulp q :=
          mul_le_mul_of_nonneg_right hround hpos.le
      _ ≤ roundoff * |q| := by
          unfold roundoff
          linarith

theorem fl_le {q : ℚ} (h : 0 ≤ q) : fl q ≤ q * (1 + roundoff) := by
  have herror := (abs_le.mp (fl_error q)).2
  rw [abs_of_nonneg h] at herror
  linarith

theorem le_fl {q : ℚ} (h : 0 ≤ q) : q * (1 - roundoff) ≤ fl q := by
  have herror := (abs_le.mp (fl_error q)).1
  rw [abs_of_nonneg h] at herror
  linarith

theorem fl_nonneg {q : ℚ} (h : 0 ≤ q) : 0 ≤ fl q := by
  have hround : roundEven 0 ≤ roundEven (q / ulp q) :=
    roundEven_mono (div_nonneg h (ulp_pos q).le)
  have hzero : roundEven 0 = 0 := by exact_mod_cast roundEven_intCast 0
  rw [hzero] at hround
  exact mul_nonneg (by exact_mod_cast hround) (ulp_pos q).le

theorem fl_le_two_pow {q : ℚ} (h : 0 ≤ q) : fl q ≤ 2 ^ 53 * ulp q := by
  have hpos := ulp_pos q
  have hle : q / ulp q ≤ ((2 ^ 53 : ℤ) : ℚ) := by
    rw [div_le_iff₀ hpos]
    have hlt := lt_ulp_mul_two_pow q
    rw [abs_of_nonneg h] at hlt
    push_cast
    exact hlt.le
  have hround := roundEven_mono hle
  rw [roundEven_intCast] at hround
  refine mul_le_mul_of_nonneg_right ?_ hpos.le
  exact_mod_cast hround

theorem two_pow_le_fl {q : ℚ} (h : 0 < q) : 2 ^ 52 * ulp q ≤ fl q := by
  have hpos := ulp_pos q
  have hle : ((2 ^ 52 : ℤ) : ℚ) ≤ q / ulp q := by
    rw [le_div_iff₀ hpos]
    have hmant := ulp_mul_two_pow_le h.ne'
    rw [abs_of_pos h] at hmant
    push_cast
    exact hmant
  have hround := roundEven_mono hle
  rw [roundEven_intCast] at hround
  refine mul_le_mul_of_nonneg_right ?_ hpos.le
  exact_mod_cast hround

/-- Rounding keeps the order. Within a binade this is the order of the mantissas; between binades
a power of two lies between the results. -/
theorem fl_mono {q r : ℚ} (hq : 0 ≤ q) (h : q ≤ r) : fl q ≤ fl r := by
  rcases hq.lt_or_eq with hpos | rfl
  · have hr : 0 < r := hpos.trans_le h
    have hlog : Int.log 2 |q| ≤ Int.log 2 |r| := by
      rw [abs_of_pos hpos, abs_of_pos hr]
      exact Int.log_mono_right hpos h
    rcases hlog.lt_or_eq with hlt | heq
    · have hulp : 2 * ulp q ≤ ulp r := by
        have hexp : Int.log 2 |q| - 52 + 1 ≤ Int.log 2 |r| - 52 := by omega
        calc 2 * ulp q = 2 ^ (Int.log 2 |q| - 52 + 1) := by
              rw [ulp, zpow_add₀ (by norm_num)]
              ring
          _ ≤ ulp r := zpow_le_zpow_right₀ (by norm_num) hexp
      have hupper := fl_le_two_pow hq
      have hlower := two_pow_le_fl hr
      linarith
    · have hulp : ulp q = ulp r := by rw [ulp, ulp, heq]
      unfold fl
      rw [hulp]
      refine mul_le_mul_of_nonneg_right ?_ (ulp_pos r).le
      have hround := roundEven_mono (div_le_div_of_nonneg_right h (ulp_pos r).le)
      exact_mod_cast hround
  · have hzero : fl 0 = 0 := by simp [fl, roundEven]
    rw [hzero]
    exact fl_nonneg h

theorem fl_natCast {n : ℕ} (h : n < 2 ^ 53) : fl n = n := by
  rcases Nat.eq_zero_or_pos n with rfl | hpos
  · simp [fl, roundEven]
  · have hn : (0 : ℚ) < n := by exact_mod_cast hpos
    have hlog : Int.log 2 |(n : ℚ)| = (Nat.log 2 n : ℤ) := by
      rw [abs_of_pos hn, Int.log_natCast]
    have hlt : Nat.log 2 n < 53 := Nat.log_lt_of_lt_pow (by omega) h
    have hdiv : (n : ℚ) / ulp n = ((n * 2 ^ (52 - Nat.log 2 n) : ℕ) : ℤ) := by
      have hexp : ((Nat.log 2 n : ℤ) - 52) = -((52 - Nat.log 2 n : ℕ) : ℤ) := by omega
      rw [ulp, hlog, hexp, zpow_neg, div_inv_eq_mul, zpow_natCast]
      push_cast
      ring
    rw [fl, hdiv, roundEven_intCast, ← hdiv]
    exact div_mul_cancel₀ _ (ulp_pos _).ne'

end Cypher.Lib
