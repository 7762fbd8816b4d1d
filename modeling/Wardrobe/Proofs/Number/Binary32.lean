import Mathlib.Algebra.Order.Field.Power
import Mathlib.Data.Rat.Cast.Order
import Mathlib.Tactic.Linarith
import Mathlib.Tactic.Ring
import Wardrobe.Number.Binary32
/-
Where rounding to single precision reaches a given number.

Between two powers of two the numbers of single precision are evenly spaced, so rounding there is
rounding to whole numbers.  A number with an even significand is the nearest one from half a unit
below it on, since the ratio halfway goes to it.
-/

namespace Wardrobe
namespace Binary32

variable {num den n d m M : Nat} {e k : Int}

/-! ## Whole numbers -/

theorem le_roundEven (h : M * d ≤ n) (hd : 0 < d) : M ≤ roundEven n d := by
  have hdiv : M ≤ n / d := (Nat.le_div_iff_mul_le hd).2 h
  rw [roundEven]
  split <;> omega

theorem roundEven_le (h : n < M * d) (hd : 0 < d) : roundEven n d ≤ M := by
  have hdiv : n / d < M := (Nat.div_lt_iff_lt_mul hd).2 h
  rw [roundEven]
  split <;> omega

/-- An even number is reached from halfway below it on. -/
theorem le_roundEven_iff (hd : 0 < d) (hM : M % 2 = 0) :
    M ≤ roundEven n d ↔ 2 * (M * d) ≤ 2 * n + d := by
  have hsplit : d * (n / d) + n % d = n := Nat.div_add_mod n d
  have hmod : n % d < d := Nat.mod_lt _ hd
  rw [roundEven]
  generalize n / d = q at *
  generalize n % d = r at *
  subst hsplit
  rcases Nat.lt_trichotomy M (q + 1) with hlt | rfl | hgt
  · have hle : M * d ≤ d * q := by
      rw [Nat.mul_comm]
      exact Nat.mul_le_mul_left _ (by omega)
    refine iff_of_true ?_ (by omega)
    split <;> omega
  · have hnext : (q + 1) * d = d * q + d := by rw [Nat.add_mul, Nat.one_mul, Nat.mul_comm]
    rw [hnext]
    split <;> omega
  · have hle : d * q + 2 * d ≤ M * d := by
      have hmul := Nat.mul_le_mul_right d (show q + 2 ≤ M by omega)
      rwa [Nat.add_mul, Nat.mul_comm q] at hmul
    refine iff_of_false ?_ (by omega)
    split <;> omega

/-! ## The exponent -/

theorem scaled_pos (hden : 0 < den) (e : Int) : 0 < (scaled num den e).2 := by
  rw [scaled]
  split
  · exact Nat.mul_pos hden (Nat.pow_pos (by decide))
  · exact hden

theorem cast_powerOf (base : Nat) (he : 0 ≤ e) :
    ((powerOf base e.toNat : Nat) : ℚ) = (base : ℚ) ^ e := by
  obtain ⟨k, rfl⟩ := Int.eq_ofNat_of_zero_le he
  rw [zpow_natCast, Int.toNat_natCast]
  exact Nat.cast_pow base k

theorem cast_powerOf_neg (base : Nat) (he : ¬ 0 ≤ e) :
    ((powerOf base (-e).toNat : Nat) : ℚ) = ((base : ℚ) ^ e)⁻¹ := by
  rw [cast_powerOf base (by omega), zpow_neg]

theorem scaled_eq (num den : Nat) (e : Int) :
    ((scaled num den e).1 : ℚ) / (scaled num den e).2 = num / den / 2 ^ e := by
  rw [scaled]
  split
  next he =>
    rw [Nat.cast_mul, cast_powerOf 2 he, div_div]
    rfl
  next he =>
    rw [Nat.cast_mul, cast_powerOf_neg 2 he, ← div_eq_mul_inv, div_right_comm]
    rfl

theorem two_zpow_pos (e : Int) : (0 : ℚ) < 2 ^ e := zpow_pos (by norm_num) e

theorem two_zpow_le (h : e ≤ k) : (2 : ℚ) ^ e ≤ 2 ^ k := zpow_le_zpow_right₀ (by norm_num) h

theorem two_zpow_add (e : Int) (n : Nat) : (2 : ℚ) ^ (e + n) = 2 ^ n * 2 ^ e := by
  rw [zpow_add₀ (by norm_num), zpow_natCast, mul_comm]

/-- The lengths of numerator and denominator place a ratio between two powers of two. -/
theorem log2_bounds (hnum : num ≠ 0) (hden : 0 < den) :
    (2 : ℚ) ^ ((num.log2 : Int) - den.log2 - 1) ≤ (num : ℚ) / den ∧
      (num : ℚ) / den < 2 ^ ((num.log2 : Int) - den.log2 + 1) := by
  have hdenq : (0 : ℚ) < den := by exact_mod_cast hden
  have hnumlow : (2 : ℚ) ^ num.log2 ≤ num := by exact_mod_cast Nat.log2_self_le hnum
  have hnumhigh : (num : ℚ) < 2 ^ (num.log2 + 1) := by exact_mod_cast Nat.lt_log2_self
  have hdenlow : (2 : ℚ) ^ den.log2 ≤ den := by exact_mod_cast Nat.log2_self_le (by omega)
  have hdenhigh : (den : ℚ) < 2 ^ (den.log2 + 1) := by exact_mod_cast Nat.lt_log2_self
  have hlow : (2 : ℚ) ^ ((num.log2 : Int) - den.log2 - 1) = 2 ^ num.log2 / 2 ^ (den.log2 + 1) := by
    rw [sub_sub, zpow_sub₀ (by norm_num), zpow_natCast]
    exact_mod_cast rfl
  have hhigh : (2 : ℚ) ^ ((num.log2 : Int) - den.log2 + 1) = 2 ^ (num.log2 + 1) / 2 ^ den.log2 := by
    rw [sub_add_eq_add_sub, zpow_sub₀ (by norm_num), zpow_natCast]
    exact_mod_cast rfl
  rw [hlow, hhigh]
  constructor
  · exact div_le_div₀ (by positivity) hnumlow hdenq hdenhigh.le
  · exact div_lt_div₀ hnumhigh hdenlow (by positivity) (by positivity)

/-- The exponent puts the point behind 24 bits, or as far back as it goes. -/
theorem exponentFor_spec (hnum : num ≠ 0) (hden : 0 < den) :
    -149 ≤ exponentFor num den ∧ (num : ℚ) / den < 2 ^ 24 * 2 ^ exponentFor num den ∧
      (-149 < exponentFor num den → 2 ^ 23 * 2 ^ exponentFor num den ≤ (num : ℚ) / den) := by
  obtain ⟨hlow, hhigh⟩ := log2_bounds hnum hden
  rw [exponentFor]
  generalize hbase : (num.log2 : Int) - den.log2 - 24 = base
  dsimp only
  have hscaled : (scaled num den base).1 / (scaled num den base).2 < powerOf 2 24 ↔
      (num : ℚ) / den < 2 ^ 24 * 2 ^ base := by
    rw [Nat.div_lt_iff_lt_mul (scaled_pos hden base), ← div_lt_iff₀ (two_zpow_pos base),
      ← scaled_eq, div_lt_iff₀ (by exact_mod_cast scaled_pos hden base)]
    exact_mod_cast Iff.rfl
  have hexponent : ∃ e, (if (scaled num den base).1 / (scaled num den base).2 < powerOf 2 24 then
      base else base + 1) = e ∧ (num : ℚ) / den < 2 ^ 24 * 2 ^ e ∧
        2 ^ 23 * 2 ^ e ≤ (num : ℚ) / den := by
    split
    next hlt =>
      refine ⟨base, rfl, hscaled.1 hlt, ?_⟩
      rw [← two_zpow_add]
      convert hlow using 2
      omega
    next hge =>
      refine ⟨base + 1, rfl, ?_, ?_⟩
      · rw [← two_zpow_add]
        convert hhigh using 2
        omega
      · rw [hscaled, not_lt] at hge
        refine le_trans (le_of_eq ?_) hge
        rw [zpow_add_one₀ (by norm_num)]
        ring
  obtain ⟨e, he, hlt, hge⟩ := hexponent
  rw [he]
  refine ⟨le_max_left _ _, hlt.trans_le ?_, fun h => ?_⟩
  · exact mul_le_mul_of_nonneg_left (two_zpow_le (le_max_right _ _)) (by positivity)
  · rwa [max_eq_right (by omega)]

/-! ## The nearest number -/

theorem nearest_eq_finite (hnum : num ≠ 0) (h : nearest num den = .finite m k) :
    k = exponentFor num den ∧ m = roundEven (scaled num den k).1 (scaled num den k).2 := by
  rw [nearest, if_neg hnum] at h
  dsimp only at h
  split at h
  · cases h
  · obtain ⟨rfl, rfl⟩ := finite.inj h
    exact ⟨rfl, rfl⟩

/-- A number with an even significand within a binade is at most the nearest one to a ratio exactly
if the ratio is at least half a unit below it. -/
theorem le_nearest_iff (hnum : num ≠ 0) (hden : 0 < den) (h : nearest num den = .finite m k)
    (hM : M % 2 = 0) (hlow : 2 ^ 23 < M) (hhigh : M < 2 ^ 24) (he : -149 ≤ e) :
    (M : ℚ) * 2 ^ e ≤ m * 2 ^ k ↔ (M - 1 / 2) * 2 ^ e ≤ (num : ℚ) / den := by
  obtain ⟨hk, hm⟩ := nearest_eq_finite hnum h
  obtain ⟨hmin, hlt, hge⟩ := exponentFor_spec hnum hden
  rw [← hk] at hmin hlt hge
  have hMlow : (2 : ℚ) ^ 23 + 1 ≤ M := by exact_mod_cast hlow
  have hMhigh : (M : ℚ) ≤ 2 ^ 24 := by exact_mod_cast hhigh.le
  have hepos := two_zpow_pos e
  have hkpos := two_zpow_pos k
  -- The significand is the ratio in units of the last place, rounded.
  have hd : 0 < (scaled num den k).2 := scaled_pos hden k
  have hvalue := scaled_eq num den k
  generalize (scaled num den k).1 = n at hm hvalue
  generalize (scaled num den k).2 = d at hm hvalue hd
  have hdq : (0 : ℚ) < d := by exact_mod_cast hd
  rw [eq_div_iff hkpos.ne'] at hvalue
  rw [← hvalue] at hlt hge ⊢
  rcases lt_trichotomy k e with hke | rfl | hke
  · -- The ratio is in a binade below, and so is what it is rounded to, at most its upper end.
    have hpow : 2 * (2 : ℚ) ^ k ≤ 2 ^ e := by
      have hle := two_zpow_le (show k + 1 ≤ e by omega)
      rwa [zpow_add_one₀ (by norm_num), mul_comm] at hle
    have hmq : (m : ℚ) ≤ 2 ^ 24 := by
      have hnd : (n : ℚ) < 2 ^ 24 * d := by
        rwa [mul_lt_mul_iff_left₀ hkpos, div_lt_iff₀ hdq] at hlt
      exact_mod_cast hm ▸ roundEven_le (by exact_mod_cast hnd) hd
    refine iff_of_false ?_ ?_
    · nlinarith
    · nlinarith
  · rw [mul_le_mul_iff_left₀ hkpos, mul_le_mul_iff_left₀ hkpos, le_div_iff₀ hdq, Nat.cast_le, hm,
      le_roundEven_iff hd hM]
    constructor
    · intro hle
      have hq : (2 : ℚ) * (M * d) ≤ 2 * n + d := by exact_mod_cast hle
      linarith
    · intro hle
      have hq : (2 : ℚ) * (M * d) ≤ 2 * n + d := by linarith
      exact_mod_cast hq
  · -- It is in a binade above, and is rounded to the lower end of that one at least.
    have hpow : 2 * (2 : ℚ) ^ e ≤ 2 ^ k := by
      have hle := two_zpow_le (show e + 1 ≤ k by omega)
      rwa [zpow_add_one₀ (by norm_num), mul_comm] at hle
    have habove := hge (by omega)
    have hmq : (2 : ℚ) ^ 23 ≤ m := by
      have hnd : 2 ^ 23 * (d : ℚ) ≤ n := by
        rwa [mul_le_mul_iff_left₀ hkpos, le_div_iff₀ hdq] at habove
      exact_mod_cast hm ▸ le_roundEven (by exact_mod_cast hnd) hd
    refine iff_of_true ?_ ?_
    · nlinarith
    · nlinarith

/-- A decimal number that does not come out as zero or infinity is rounded as a ratio. -/
theorem ofDecimal_eq_finite {digits : Nat} {exponent : Int} (hm : m ≠ 0)
    (h : ofDecimal digits exponent = .finite m k) : ∃ num den : Nat, num ≠ 0 ∧ 0 < den ∧
      (num : ℚ) / den = digits * 10 ^ exponent ∧ nearest num den = .finite m k := by
  have hzero : (finite 0 0 : Binary32) ≠ .finite m k := fun heq => hm (finite.inj heq).1.symm
  rw [ofDecimal] at h
  split at h
  · exact absurd h hzero
  next hdigits =>
    split at h
    · cases h
    split at h
    · exact absurd h hzero
    split at h
    next hexponent =>
      have hpow : 0 < powerOf 10 exponent.toNat := Nat.pow_pos (by decide)
      refine ⟨_, 1, Nat.mul_ne_zero hdigits hpow.ne', Nat.one_pos, ?_, h⟩
      rw [Nat.cast_mul, cast_powerOf 10 hexponent, Nat.cast_one, div_one]
      rfl
    next hexponent =>
      refine ⟨digits, powerOf 10 (-exponent).toNat, hdigits, Nat.pow_pos (by decide), ?_, h⟩
      rw [cast_powerOf_neg 10 hexponent, div_inv_eq_mul]
      rfl

theorem fraction?_finite (h : (finite m k).fraction? = some (num, den)) :
    0 < den ∧ (num : ℚ) / den = m * 2 ^ k := by
  have hfraction := Option.some.inj h
  split at hfraction
  next hk =>
    obtain ⟨rfl, rfl⟩ := Prod.mk.inj hfraction
    refine ⟨Nat.one_pos, ?_⟩
    rw [Nat.cast_mul, cast_powerOf 2 hk, Nat.cast_one, div_one]
    rfl
  next hk =>
    obtain ⟨rfl, rfl⟩ := Prod.mk.inj hfraction
    refine ⟨Nat.pow_pos (by decide), ?_⟩
    rw [cast_powerOf_neg 2 hk, div_inv_eq_mul]
    rfl

end Binary32
end Wardrobe
