import Mathlib.Algebra.Order.Round
import Mathlib.Data.Int.Log
import Mathlib.Data.Rat.Floor
import Mathlib.Tactic.FieldSimp
import Mathlib.Tactic.Linarith
import Mathlib.Tactic.NormNum

/-!
# Binary floating point

A number of the format has 53 significant bits. A result is the nearest such number, and of two the
one whose last bit is 0. Neither the least nor the greatest numbers of the format are modelled, so
the results are right where they are 0 or of normal size.

The quotient of two naturals below `2 ^ 32` lies so far from the next integer that its rounding does
not reach it: rounding it up to an integer is exact.
-/

namespace UHorse.Lib.Binary64

/-- The nearest integer, and of two the even one. -/
def roundEven (q : ℚ) : ℤ :=
  let below := ⌊q⌋
  if q - below < 1 / 2 then below
  else if 1 / 2 < q - below then below + 1
  else if below % 2 = 0 then below else below + 1

/-- The distance of the numbers of the format about `q`. -/
def ulp (q : ℚ) : ℚ := 2 ^ (Int.log 2 |q| - 52)

def nearest (q : ℚ) : ℚ := roundEven (q / ulp q) * ulp q

/-- Division of two numbers of the format. -/
def div (a b : ℚ) : ℚ := nearest (a / b)

theorem abs_roundEven_sub_le (q : ℚ) : |(roundEven q : ℚ) - q| ≤ 1 / 2 := by
  have least := Int.floor_le q
  have next := Int.lt_floor_add_one q
  rw [roundEven, abs_le]
  split_ifs <;> push_cast <;> constructor <;> linarith

theorem roundEven_intCast (n : ℤ) : roundEven n = n := by
  rw [roundEven]
  simp

theorem ulp_pos (q : ℚ) : 0 < ulp q := zpow_pos (by norm_num) _

/-- Rounding errs by no more than one part in `2 ^ 53`. -/
theorem abs_nearest_sub_le {q : ℚ} (positive : 0 < q) : |nearest q - q| ≤ q / 2 ^ 53 := by
  have unit := ulp_pos q
  have size : ulp q ≤ q / 2 ^ 52 := by
    have log := Int.zpow_log_le_self (b := 2) (by norm_num) (abs_pos.mpr positive.ne')
    rw [abs_of_pos positive] at log
    rw [ulp, abs_of_pos positive, zpow_sub₀ (by norm_num)]
    exact (div_le_div_iff_of_pos_right (by norm_num)).mpr (by exact_mod_cast log)
  have error := abs_roundEven_sub_le (q / ulp q)
  have same : nearest q - q = ((roundEven (q / ulp q) : ℚ) - q / ulp q) * ulp q := by
    rw [nearest, sub_mul, div_mul_cancel₀ _ unit.ne']
  rw [same, abs_mul, abs_of_pos unit]
  calc |(roundEven (q / ulp q) : ℚ) - q / ulp q| * ulp q ≤ 1 / 2 * (q / 2 ^ 52) :=
        mul_le_mul error size unit.le (by norm_num)
    _ = q / 2 ^ 53 := by ring

/-- The naturals with up to 53 bits are numbers of the format. -/
theorem nearest_natCast {n : Nat} (small : n < 2 ^ 53) : nearest n = n := by
  obtain rfl | positive := Nat.eq_zero_or_pos n
  · rw [nearest]
    simp [roundEven]
  · have log : Int.log 2 (n : ℚ) ≤ 52 := by
      rw [Int.log_natCast]
      exact_mod_cast Nat.lt_succ_iff.mp (Nat.log_lt_of_lt_pow positive.ne' small)
    obtain ⟨bits, equal⟩ := Int.le.dest log
    have whole : (n : ℚ) / ulp n = ((n * 2 ^ bits : ℤ) : ℚ) := by
      rw [ulp, Nat.abs_cast, show Int.log 2 (n : ℚ) - 52 = -(bits : ℤ) by omega, zpow_neg,
        zpow_natCast, div_inv_eq_mul]
      push_cast
      ring
    rw [nearest, whole, roundEven_intCast, ← whole, div_mul_cancel₀ _ (ulp_pos _).ne']

/-- Rounding the quotient does not change the integer above it. -/
theorem ceil_div_eq {t k : Nat} (small : t < 2 ^ 32) (positive : 0 < k) :
    ⌈div t k⌉ = ⌈(t : ℚ) / k⌉ := by
  have size : (0 : ℚ) < k := by exact_mod_cast positive
  have parts : (t : ℚ) = k * (t / k : ℕ) + (t % k : ℕ) := by
    exact_mod_cast (Nat.div_add_mod t k).symm
  have quotient : (t : ℚ) / k = (t / k : ℕ) + (t % k : ℕ) / k := by
    rw [parts]
    field_simp
  obtain even | odd := Nat.eq_zero_or_pos (t % k)
  · have whole : (t : ℚ) / k = (t / k : ℕ) := by
      rw [quotient, even, Nat.cast_zero, zero_div, add_zero]
    have few : t / k < 2 ^ 53 := (Nat.div_le_self t k).trans_lt (by omega)
    rw [div, whole, nearest_natCast few]
  · have least : (1 : ℚ) ≤ (t % k : ℕ) := by exact_mod_cast odd
    have below : ((t % k : ℕ) : ℚ) ≤ k - 1 := by
      have := Nat.mod_lt t positive
      rw [le_sub_iff_add_le]
      exact_mod_cast this
    have low : (1 : ℚ) / k ≤ (t % k : ℕ) / k := by gcongr
    have high : ((t % k : ℕ) : ℚ) / k ≤ 1 - 1 / k := by
      rw [div_le_iff₀ size, sub_mul, one_mul, one_div_mul_cancel size.ne']
      exact below
    have above : 0 < (t : ℚ) / k := by
      rw [quotient]
      have : (0 : ℚ) < 1 / k := by positivity
      have : (0 : ℚ) ≤ (t / k : ℕ) := by positivity
      linarith
    -- The quotient is a multiple of `1 / k`, and its error is less than that.
    have error : |div t k - t / k| < 1 / k := by
      refine (abs_nearest_sub_le above).trans_lt ?_
      rw [div_div, div_lt_div_iff₀ (by positivity) size, one_mul, mul_comm]
      have : (t : ℚ) < 2 ^ 32 := by exact_mod_cast small
      nlinarith
    rw [abs_lt] at error
    have ceil : ∀ x : ℚ, (t / k : ℕ) < x → x ≤ (t / k : ℕ) + 1 → ⌈x⌉ = (t / k : ℕ) + 1 := by
      intro x more less
      rw [Int.ceil_eq_iff, Int.cast_add, Int.cast_natCast, Int.cast_one]
      exact ⟨by linarith, less⟩
    have unit : (0 : ℚ) < 1 / k := by positivity
    rw [ceil (div t k) (by linarith) (by linarith), ceil (t / k) (by linarith) (by linarith)]

end UHorse.Lib.Binary64
