import Mathlib.Algebra.Order.Round
import Mathlib.Data.Int.Log
import Mathlib.Data.Rat.Floor
import Mathlib.Tactic.Linarith
import Mathlib.Tactic.NormNum
import Mathlib.Tactic.Positivity
import Mathlib.Tactic.Ring

/-!
# Double precision

The finite numbers of the 64-bit binary format, as rational numbers: a significand of 53 bits, and no place below
`2 ^ (-1074)`. What is computed is rounded to the nearest of them, and to the one with an even significand where two are
equally near. The exponent has no upper bound here, so that nothing overflows to infinity.
-/

/-! ### Rounding to an integer -/

/-- The nearest integer, and of two the even one. -/
def roundEven (q : ℚ) : ℤ :=
  if Int.fract q < 1 / 2 then ⌊q⌋
  else if 1 / 2 < Int.fract q then ⌊q⌋ + 1
  else if Even ⌊q⌋ then ⌊q⌋ else ⌊q⌋ + 1

@[simp] theorem roundEven_intCast (n : ℤ) : roundEven n = n := by simp [roundEven]

theorem floor_le_roundEven (q : ℚ) : ⌊q⌋ ≤ roundEven q := by
  rw [roundEven]
  split_ifs <;> omega

theorem roundEven_le_floor_add_one (q : ℚ) : roundEven q ≤ ⌊q⌋ + 1 := by
  rw [roundEven]
  split_ifs <;> omega

theorem roundEven_mono {q r : ℚ} (h : q ≤ r) : roundEven q ≤ roundEven r := by
  obtain hlt | heq := (Int.floor_le_floor h).lt_or_eq
  · have hq := roundEven_le_floor_add_one q
    have hr := floor_le_roundEven r
    omega
  · have hfract : Int.fract q ≤ Int.fract r := by
      rw [Int.fract, Int.fract, heq]
      linarith
    rw [roundEven, roundEven, heq]
    split_ifs <;> first | omega | linarith

theorem roundEven_le_of_le {q : ℚ} {n : ℤ} (h : q ≤ n) : roundEven q ≤ n := by
  have hmono := roundEven_mono h
  rwa [roundEven_intCast] at hmono

theorem le_roundEven_of_le {q : ℚ} {n : ℤ} (h : (n : ℚ) ≤ q) : n ≤ roundEven q := by
  have hmono := roundEven_mono h
  rwa [roundEven_intCast] at hmono

namespace Binary64

/-! ### Rounding to 53 bits -/

/-- The exponent of the last place. -/
def lastPlace (q : ℚ) : ℤ := max (Int.log 2 |q|) (-1022) - 52

def round (q : ℚ) : ℚ := roundEven (q / 2 ^ lastPlace q) * 2 ^ lastPlace q

theorem le_lastPlace (q : ℚ) : -1074 ≤ lastPlace q := by
  rw [lastPlace]
  omega

theorem lastPlace_mono {q r : ℚ} (hq : 0 < q) (h : q ≤ r) : lastPlace q ≤ lastPlace r := by
  have hlog : Int.log 2 |q| ≤ Int.log 2 |r| := by
    rw [abs_of_pos hq, abs_of_pos (hq.trans_le h)]
    exact Int.log_mono_right hq h
  rw [lastPlace, lastPlace]
  omega

theorem abs_lt_zpow (q : ℚ) : |q| < 2 ^ (lastPlace q + 53) := by
  have hlog : |q| < 2 ^ (Int.log 2 |q| + 1) := Int.lt_zpow_succ_log_self (by decide) |q|
  refine hlog.trans_le (zpow_le_zpow_right₀ (by norm_num) ?_)
  rw [lastPlace]
  omega

theorem zpow_le_abs {q : ℚ} (hq : q ≠ 0) (hnormal : -1074 < lastPlace q) : 2 ^ (lastPlace q + 52) ≤ |q| := by
  have hlog : (2 : ℚ) ^ Int.log 2 |q| ≤ |q| := Int.zpow_log_le_self (by decide) (abs_pos.mpr hq)
  refine le_trans (zpow_le_zpow_right₀ (by norm_num) ?_) hlog
  rw [lastPlace] at hnormal ⊢
  omega

/-- A significand has 53 bits, or is the next power of two. -/
theorem abs_roundEven_le (q : ℚ) : |roundEven (q / 2 ^ lastPlace q)| ≤ 2 ^ 53 := by
  have hpos : (0 : ℚ) < 2 ^ lastPlace q := zpow_pos (by norm_num) _
  have hlt : |q / 2 ^ lastPlace q| < 2 ^ 53 := by
    rw [abs_div, abs_of_pos hpos, div_lt_iff₀ hpos]
    have h := abs_lt_zpow q
    rwa [zpow_add₀ (by norm_num), mul_comm] at h
  obtain ⟨hlow, hhigh⟩ := abs_lt.mp hlt
  refine abs_le.mpr ⟨le_roundEven_of_le ?_, roundEven_le_of_le ?_⟩
  · push_cast
    exact hlow.le
  · push_cast
    exact hhigh.le

/-- The last place of a significand that is read at another one. -/
theorem lastPlace_le {m e : ℤ} (hm : |m| < 2 ^ 53) (hne : m ≠ 0) (he : -1074 ≤ e) : lastPlace (m * 2 ^ e) ≤ e := by
  have hpos : (0 : ℚ) < 2 ^ e := zpow_pos (by norm_num) _
  have hsize : |(m : ℚ) * 2 ^ e| < 2 ^ (e + 53) := by
    rw [abs_mul, abs_of_pos hpos, zpow_add₀ (by norm_num), mul_comm]
    refine mul_lt_mul_of_pos_left ?_ hpos
    exact_mod_cast hm
  have hnonzero : 0 < |(m : ℚ) * 2 ^ e| := abs_pos.mpr (mul_ne_zero (Int.cast_ne_zero.mpr hne) hpos.ne')
  have hlog : Int.log 2 |(m : ℚ) * 2 ^ e| < e + 53 := (Int.lt_zpow_iff_log_lt (by decide) hnonzero).mp hsize
  rw [lastPlace]
  omega

/-- What fits into the format is left alone. -/
theorem round_of_significand {m e : ℤ} (hm : |m| < 2 ^ 53) (he : -1074 ≤ e) : round (m * 2 ^ e) = m * 2 ^ e := by
  by_cases hne : m = 0
  · simp [hne, round, show roundEven 0 = 0 from roundEven_intCast 0]
  · have hplace := lastPlace_le hm hne he
    have hwhole : (m : ℚ) * 2 ^ e / 2 ^ lastPlace (m * 2 ^ e) = (m * 2 ^ (e - lastPlace (m * 2 ^ e)).toNat : ℤ) := by
      rw [mul_div_assoc, ← zpow_sub₀ (by norm_num)]
      push_cast
      rw [← zpow_natCast, Int.toNat_of_nonneg (by omega)]
    rw [round, hwhole, roundEven_intCast, ← hwhole, div_mul_cancel₀ _ (zpow_ne_zero _ (by norm_num))]

theorem round_of_representable {m e : ℤ} (hm : |m| ≤ 2 ^ 53) (he : -1074 ≤ e) : round (m * 2 ^ e) = m * 2 ^ e := by
  obtain hlt | heq := hm.lt_or_eq
  · exact round_of_significand hlt he
  · -- the next power of two is a significand at the next place
    have hpower : m = 2 ^ 53 ∨ m = -2 ^ 53 := (abs_eq (by norm_num)).mp heq
    have hhalf : (m : ℚ) * 2 ^ e = (m / 2 : ℤ) * 2 ^ (e + 1) := by
      have hdouble : m = m / 2 * 2 := by omega
      rw [zpow_add₀ (by norm_num), zpow_one]
      nth_rewrite 1 [hdouble]
      push_cast
      ring
    have hsmall : |m / 2| < 2 ^ 53 := abs_lt.mpr (by omega)
    rw [hhalf]
    exact round_of_significand hsmall (by omega)

theorem round_intCast {n : ℤ} (hn : |n| ≤ 2 ^ 53) : round n = n := by
  simpa using round_of_representable hn (by norm_num : (-1074 : ℤ) ≤ 0)

theorem round_round (q : ℚ) : round (round q) = round q :=
  round_of_representable (abs_roundEven_le q) (le_lastPlace q)

theorem round_zero : round 0 = 0 := by
  simpa using round_intCast (by norm_num : |(0 : ℤ)| ≤ 2 ^ 53)

theorem round_nonneg {q : ℚ} (hq : 0 ≤ q) : 0 ≤ round q := by
  have hpos : (0 : ℚ) < 2 ^ lastPlace q := zpow_pos (by norm_num) _
  have hsignificand : 0 ≤ roundEven (q / 2 ^ lastPlace q) := le_roundEven_of_le (by simpa using div_nonneg hq hpos.le)
  exact mul_nonneg (Int.cast_nonneg hsignificand) hpos.le

theorem round_mono {q r : ℚ} (hq : 0 ≤ q) (h : q ≤ r) : round q ≤ round r := by
  obtain hpos | rfl := hq.lt_or_eq
  · have hplaceQ : (0 : ℚ) < 2 ^ lastPlace q := zpow_pos (by norm_num) _
    have hplaceR : (0 : ℚ) < 2 ^ lastPlace r := zpow_pos (by norm_num) _
    obtain hlt | heq := (lastPlace_mono hpos h).lt_or_eq
    · -- the power of two between the last places of the two
      have hbelow : round q ≤ 2 ^ (lastPlace q + 53) := by
        have hsignificand := (abs_le.mp (abs_roundEven_le q)).2
        rw [round, zpow_add₀ (by norm_num), mul_comm]
        refine mul_le_mul_of_nonneg_left ?_ hplaceQ.le
        exact_mod_cast hsignificand
      have habove : (2 : ℚ) ^ (lastPlace r + 52) ≤ round r := by
        have hsize := zpow_le_abs (hpos.trans_le h).ne' (lt_of_le_of_lt (le_lastPlace q) hlt)
        rw [abs_of_pos (hpos.trans_le h), zpow_add₀ (by norm_num), mul_comm, ← le_div_iff₀ hplaceR] at hsize
        have hsignificand : (2 ^ 52 : ℤ) ≤ roundEven (r / 2 ^ lastPlace r) := le_roundEven_of_le (by exact_mod_cast hsize)
        rw [round, zpow_add₀ (by norm_num), mul_comm]
        refine mul_le_mul_of_nonneg_right ?_ hplaceR.le
        exact_mod_cast hsignificand
      refine hbelow.trans (le_trans (zpow_le_zpow_right₀ (by norm_num) ?_) habove)
      omega
    · rw [round, round, heq]
      refine mul_le_mul_of_nonneg_right ?_ hplaceR.le
      exact_mod_cast roundEven_mono (div_le_div_of_nonneg_right h hplaceR.le)
  · rw [round_zero]
    exact round_nonneg h

end Binary64

/-! ### The numbers -/

structure Binary64 where
  value : ℚ
  isRounded : Binary64.round value = value

namespace Binary64

def ofRat (q : ℚ) : Binary64 := ⟨round q, round_round q⟩

def ofNat (n : ℕ) : Binary64 := ofRat n

instance : Mul Binary64 := ⟨fun a b => ofRat (a.value * b.value)⟩

theorem value_ofRat (q : ℚ) : (ofRat q).value = round q := rfl

theorem value_ofNat (n : ℕ) : (ofNat n).value = round n := rfl

theorem value_mul (a b : Binary64) : (a * b).value = round (a.value * b.value) := rfl

/-- The least whole number that is not smaller. -/
def ceil (a : Binary64) : Binary64 := ofRat ⌈a.value⌉

/-- What comes before the point, and the nearest bound of the 64-bit numbers for what is not among them. -/
def toUInt64 (a : Binary64) : UInt64 := UInt64.ofNat (min ⌊a.value⌋.toNat (2 ^ 64 - 1))

/-- A number that is not whole is small enough for the next whole number to have a significand. -/
theorem value_ceil (a : Binary64) : a.ceil.value = ⌈a.value⌉ := by
  have hrounded := a.isRounded
  by_cases hplace : 0 ≤ lastPlace a.value
  · have hwhole : a.value = (roundEven (a.value / 2 ^ lastPlace a.value) * 2 ^ (lastPlace a.value).toNat : ℤ) := by
      push_cast
      rw [← zpow_natCast, Int.toNat_of_nonneg hplace]
      exact hrounded.symm
    have hceil : (⌈a.value⌉ : ℚ) = a.value := by
      rw [hwhole, Int.ceil_intCast]
    show round ⌈a.value⌉ = ⌈a.value⌉
    rw [hceil, hrounded]
  · have hsize : |a.value| ≤ (2 ^ 53 : ℤ) := by
      have hle : (2 : ℚ) ^ (lastPlace a.value + 53) ≤ 2 ^ (53 : ℤ) := zpow_le_zpow_right₀ (by norm_num) (by omega)
      exact_mod_cast (abs_lt_zpow a.value).le.trans hle
    obtain ⟨hlow, hhigh⟩ := abs_le.mp hsize
    apply round_intCast
    refine abs_le.mpr ⟨?_, Int.ceil_le.mpr hhigh⟩
    exact_mod_cast hlow.trans (Int.le_ceil a.value)

end Binary64
