import Mathlib.Algebra.Order.Field.Power
import Mathlib.Tactic.FieldSimp
import Mathlib.Tactic.Linarith
import Mathlib.Tactic.NormNum
import Mathlib.Tactic.Positivity
import Mathlib.Tactic.Ring
import TemplateTree.Number.Binary64

/-!
# Rounding to doubles

The doubles are a grid on the rational numbers that gets coarser at each power of two. The numbers
that are rounded to a double `m · 2 ^ q` lie between its midpoints with its two neighbours
(`Binary64.Rounds`), and every fraction between them is rounded to it (`Binary64.ofRatio_eq`); so is
every decimal (`Binary64.ofDecimal_eq`).
-/

namespace TemplateTree

/-! ## 1. Fractions -/

/-- A fraction divided by a power of a base. Doubles divide by powers of two so, decimals by powers of
    ten. -/
def scaleBy (base num den : ℕ) (e : ℤ) : ℕ × ℕ :=
  if e < 0 then (num * Nat.pow base e.natAbs, den) else (num, den * Nat.pow base e.natAbs)

theorem scaleBy_value (base num den : ℕ) (e : ℤ) :
    ((scaleBy base num den e).1 : ℚ) / (scaleBy base num den e).2 = num / den / (base : ℚ) ^ e := by
  unfold scaleBy
  by_cases he : e < 0
  · obtain ⟨n, rfl⟩ : ∃ n : ℕ, e = -n := ⟨e.natAbs, by omega⟩
    simp only [if_pos he, Int.natAbs_neg, Int.natAbs_natCast, Nat.pow_eq, Nat.cast_mul, Nat.cast_pow,
      zpow_neg, zpow_natCast, div_inv_eq_mul]
    ring
  · obtain ⟨n, rfl⟩ : ∃ n : ℕ, e = n := ⟨e.natAbs, by omega⟩
    simp only [if_neg he, Int.natAbs_natCast, Nat.pow_eq, Nat.cast_mul, Nat.cast_pow, zpow_natCast,
      div_div]

theorem scaleBy_pos (base : ℕ) [NeZero base] {num den : ℕ} (hden : 0 < den) (e : ℤ) :
    0 < (scaleBy base num den e).2 := by
  unfold scaleBy
  split
  · exact hden
  · exact Nat.mul_pos hden (Nat.pow_pos (Nat.pos_of_neZero base))

namespace Binary64

theorem scaleDown_value (num den : ℕ) (e : ℤ) :
    ((scaleDown num den e).1 : ℚ) / (scaleDown num den e).2 = num / den / 2 ^ e := by
  exact_mod_cast scaleBy_value 2 num den e

theorem scaleDown_pos {num den : ℕ} (hden : 0 < den) (e : ℤ) : 0 < (scaleDown num den e).2 :=
  scaleBy_pos 2 hden e

/-! ## 2. Rounding to natural numbers -/

/-- Whether a natural number is the nearest one, where a half goes to an even one. -/
def IsNearest (k : ℕ) (x : ℚ) : Prop :=
  (k - 1 / 2 < x ∧ x < k + 1 / 2) ∨ (k % 2 = 0 ∧ k - 1 / 2 ≤ x ∧ x ≤ k + 1 / 2)

theorem roundDiv_eq_of_bounds {num den k : ℕ} (hden : 0 < den)
    (h : (2 * k * den < 2 * num + den ∧ 2 * num < (2 * k + 1) * den) ∨
      (k % 2 = 0 ∧ 2 * k * den ≤ 2 * num + den ∧ 2 * num ≤ (2 * k + 1) * den)) :
    roundDiv num den = k := by
  have hnum : den * (num / den) + num % den = num := Nat.div_add_mod num den
  have hrest : num % den < den := Nat.mod_lt num hden
  have hbounds : 2 * k * den ≤ 2 * num + den ∧ 2 * num ≤ (2 * k + 1) * den := by
    rcases h with h | h
    · exact ⟨h.1.le, h.2.le⟩
    · exact h.2
  unfold roundDiv
  dsimp only
  generalize num / den = quotient at *
  generalize num % den = rest at *
  have hle : quotient ≤ k := by
    have hlt : 2 * quotient * den < (2 * k + 2) * den := by nlinarith
    have := lt_of_mul_lt_mul_right hlt (Nat.zero_le den)
    omega
  have hge : k ≤ quotient + 1 := by
    have hlt : 2 * k * den < (2 * quotient + 3) * den := by nlinarith
    have := lt_of_mul_lt_mul_right hlt (Nat.zero_le den)
    omega
  rcases (by omega : k = quotient ∨ k = quotient + 1) with rfl | rfl
  · have hhigh : 2 * rest ≤ den := by rcases h with h | h <;> nlinarith
    split
    · rfl
    · rw [if_neg (by omega), if_pos]
      rcases h with h | h
      · nlinarith
      · exact h.1
  · have hlow : den ≤ 2 * rest := by rcases h with h | h <;> nlinarith
    rw [if_neg (by omega)]
    split
    · rfl
    · rw [if_neg]
      rcases h with h | h
      · nlinarith
      · omega

/-- **The quotient is rounded to the nearest natural number.** -/
theorem roundDiv_eq {num den k : ℕ} (hden : 0 < den) (h : IsNearest k (num / den)) :
    roundDiv num den = k := by
  have hpos : (0 : ℚ) < den := by exact_mod_cast hden
  apply roundDiv_eq_of_bounds hden
  rcases h with ⟨hlow, hhigh⟩ | ⟨heven, hlow, hhigh⟩
  · left
    rw [lt_div_iff₀ hpos] at hlow
    rw [div_lt_iff₀ hpos] at hhigh
    constructor
    · have : (2 : ℚ) * k * den < 2 * num + den := by linarith
      exact_mod_cast this
    · have : (2 : ℚ) * num < (2 * k + 1) * den := by linarith
      exact_mod_cast this
  · right
    rw [le_div_iff₀ hpos] at hlow
    rw [div_le_iff₀ hpos] at hhigh
    refine ⟨heven, ?_, ?_⟩
    · have : (2 : ℚ) * k * den ≤ 2 * num + den := by linarith
      exact_mod_cast this
    · have : (2 : ℚ) * num ≤ (2 * k + 1) * den := by linarith
      exact_mod_cast this

/-! ## 3. The exponent -/

theorem two_zpow_pos (e : ℤ) : (0 : ℚ) < 2 ^ e := by positivity

/-- A fraction lies between the powers of two that the lengths of its parts give. -/
theorem log2_bracket {num den : ℕ} (hnum : num ≠ 0) (hden : den ≠ 0) :
    (2 : ℚ) ^ ((num.log2 : ℤ) - den.log2 - 1) < num / den ∧
      (num : ℚ) / den < 2 ^ ((num.log2 : ℤ) - den.log2 + 1) := by
  have hnumlow : (2 : ℚ) ^ (num.log2 : ℤ) ≤ num := by exact_mod_cast Nat.log2_self_le hnum
  have hnumhigh : (num : ℚ) < 2 ^ ((num.log2 : ℤ) + 1) := by exact_mod_cast Nat.lt_log2_self
  have hdenlow : (2 : ℚ) ^ (den.log2 : ℤ) ≤ den := by exact_mod_cast Nat.log2_self_le hden
  have hdenhigh : (den : ℚ) < 2 ^ ((den.log2 : ℤ) + 1) := by exact_mod_cast Nat.lt_log2_self
  have hpos : (0 : ℚ) < den := by exact_mod_cast Nat.pos_of_ne_zero hden
  rw [lt_div_iff₀ hpos, div_lt_iff₀ hpos]
  constructor
  · calc (2 : ℚ) ^ ((num.log2 : ℤ) - den.log2 - 1) * den
        < 2 ^ ((num.log2 : ℤ) - den.log2 - 1) * 2 ^ ((den.log2 : ℤ) + 1) :=
          mul_lt_mul_of_pos_left hdenhigh (two_zpow_pos _)
      _ = 2 ^ (num.log2 : ℤ) := by rw [← zpow_add₀ two_ne_zero]; congr 1; ring
      _ ≤ num := hnumlow
  · calc (num : ℚ) < 2 ^ ((num.log2 : ℤ) + 1) := hnumhigh
      _ = 2 ^ ((num.log2 : ℤ) - den.log2 + 1) * 2 ^ (den.log2 : ℤ) := by
          rw [← zpow_add₀ two_ne_zero]; congr 1; ring
      _ ≤ 2 ^ ((num.log2 : ℤ) - den.log2 + 1) * den :=
          mul_le_mul_of_nonneg_left hdenlow (two_zpow_pos _).le

theorem lt_of_two_zpow_lt {a b : ℤ} (h : (2 : ℚ) ^ a < 2 ^ b) : a < b :=
  (zpow_lt_zpow_iff_right₀ one_lt_two).mp h

/-- The test of a scaled quotient is one of the fraction itself. -/
theorem scaled_lt_iff {num den : ℕ} (hden : den ≠ 0) (e : ℤ) :
    (scaleDown num den e).1 / (scaleDown num den e).2 < Nat.pow 2 53 ↔
      (num : ℚ) / den < 2 ^ (53 + e) := by
  have hpos : 0 < (scaleDown num den e).2 := scaleDown_pos (Nat.pos_of_ne_zero hden) e
  have hcast : (0 : ℚ) < (scaleDown num den e).2 := by exact_mod_cast hpos
  rw [Nat.div_lt_iff_lt_mul hpos, zpow_add₀ two_ne_zero, ← div_lt_iff₀ (two_zpow_pos e),
    ← scaleDown_value, div_lt_iff₀ hcast]
  norm_cast

/-- **The exponent is that of a mantissa of 53 bits**, or the least one. -/
theorem exists_exponentFor {num den : ℕ} (hnum : num ≠ 0) (hden : den ≠ 0) :
    ∃ k : ℤ, (2 : ℚ) ^ (52 + k) ≤ num / den ∧ (num : ℚ) / den < 2 ^ (53 + k) ∧
      exponentFor num den = max minExponent k := by
  obtain ⟨hmore, hless⟩ := log2_bracket hnum hden
  unfold exponentFor
  dsimp only
  generalize hstart : (num.log2 : ℤ) - den.log2 - 53 = start
  rw [show (num.log2 : ℤ) - den.log2 - 1 = 52 + start by omega] at hmore
  rw [show (num.log2 : ℤ) - den.log2 + 1 = 53 + (start + 1) by omega] at hless
  by_cases hlt : (num : ℚ) / den < 2 ^ (53 + start)
  · rw [if_pos ((scaled_lt_iff hden start).mpr hlt)]
    exact ⟨start, hmore.le, hlt, rfl⟩
  · rw [if_neg fun h => hlt ((scaled_lt_iff hden start).mp h)]
    refine ⟨start + 1, ?_, hless, rfl⟩
    rw [show 52 + (start + 1) = 53 + start by omega]
    exact not_lt.mp hlt

section

variable {num den : ℕ} (hnum : num ≠ 0) (hden : den ≠ 0)

include hnum hden

theorem exponentFor_eq {k : ℤ} (hk : minExponent ≤ k) (hlow : (2 : ℚ) ^ (52 + k) ≤ num / den)
    (hhigh : (num : ℚ) / den < 2 ^ (53 + k)) : exponentFor num den = k := by
  obtain ⟨j, hjlow, hjhigh, hj⟩ := exists_exponentFor hnum hden
  have hle := lt_of_two_zpow_lt (hlow.trans_lt hjhigh)
  have hge := lt_of_two_zpow_lt (hjlow.trans_lt hhigh)
  omega

theorem exponentFor_eq_min (hhigh : (num : ℚ) / den < 2 ^ (53 + minExponent)) :
    exponentFor num den = minExponent := by
  obtain ⟨j, hjlow, -, hj⟩ := exists_exponentFor hnum hden
  have hle := lt_of_two_zpow_lt (hjlow.trans_lt hhigh)
  omega

/-- The double of a fraction whose mantissa is nearest to some number, which may be one too large
    for a mantissa. -/
theorem ofRatio_of_isNearest {k : ℕ} {e : ℤ} (negative : Bool) (he : exponentFor num den = e)
    (hk : IsNearest k (num / den / 2 ^ e)) :
    ofRatio negative num den =
      if maxExponent < (if k = 2 ^ 53 then e + 1 else e) then infinite negative
      else finite negative (if k = 2 ^ 53 then 2 ^ 52 else k) (if k = 2 ^ 53 then e + 1 else e) := by
  have hround : roundDiv (scaleDown num den e).1 (scaleDown num den e).2 = k := by
    apply roundDiv_eq (scaleDown_pos (Nat.pos_of_ne_zero hden) e)
    rwa [scaleDown_value]
  unfold ofRatio
  rw [if_neg hnum]
  dsimp only
  rw [he, hround]
  rfl

end

end Binary64

/-! ## 4. Finite doubles -/

/-- A finite double: a mantissa of 53 bits with the least exponent for it, or the least exponent of
    all. -/
structure Finite64 where
  negative : Bool
  mantissa : Nat
  exponent : Int
  mantissa_lt : mantissa < 2 ^ 53
  exponent_ge : Binary64.minExponent ≤ exponent
  exponent_le : exponent ≤ Binary64.maxExponent
  normal : 2 ^ 52 ≤ mantissa ∨ exponent = Binary64.minExponent

namespace Finite64

/-- The double of a finite one. -/
def toBinary64 (d : Finite64) : Binary64 := .finite d.negative d.mantissa d.exponent

/-- How far the midpoint below is, in quarters of the last place: the neighbour below a power of two
    is only half as far as the one above. -/
def lowGap (d : Finite64) : ℕ :=
  if d.mantissa = Nat.pow 2 52 ∧ Binary64.minExponent < d.exponent then 1 else 2

/-- The midpoint with the neighbour below. -/
def low (d : Finite64) : ℚ := (d.mantissa - d.lowGap / 4) * 2 ^ d.exponent

/-- The midpoint with the neighbour above. -/
def high (d : Finite64) : ℚ := (d.mantissa + 1 / 2) * 2 ^ d.exponent

/-- Whether a number is rounded to the double, apart from its sign. The midpoints are rounded to an
    even mantissa. -/
def Rounds (d : Finite64) (x : ℚ) : Prop :=
  (d.low < x ∧ x < d.high) ∨ (d.mantissa % 2 = 0 ∧ d.low ≤ x ∧ x ≤ d.high)

theorem Rounds.low_le {d : Finite64} {x : ℚ} (h : d.Rounds x) : d.low ≤ x := by
  rcases h with h | h
  · exact h.1.le
  · exact h.2.1

theorem Rounds.le_high {d : Finite64} {x : ℚ} (h : d.Rounds x) : x ≤ d.high := by
  rcases h with h | h
  · exact h.2.le
  · exact h.2.2

theorem lowGap_le (d : Finite64) : d.lowGap ≤ 2 := by
  unfold lowGap
  split <;> omega

/-- Half a unit below a mantissa is not above the midpoint. -/
theorem half_below_le (d : Finite64) : (d.mantissa - 1 / 2 : ℚ) * 2 ^ d.exponent ≤ d.low := by
  have hgap : (d.lowGap : ℚ) ≤ 2 := by exact_mod_cast d.lowGap_le
  apply mul_le_mul_of_nonneg_right _ (Binary64.two_zpow_pos _).le
  linarith

/-- **A number that is rounded to a double has its mantissa nearest to it**, in units of the double. -/
theorem isNearest {d : Finite64} {x : ℚ} (h : d.Rounds x) :
    Binary64.IsNearest d.mantissa (x / 2 ^ d.exponent) := by
  have hpos := Binary64.two_zpow_pos d.exponent
  have hhalf := d.half_below_le
  rcases h with ⟨hlow, hhigh⟩ | ⟨heven, hlow, hhigh⟩
  · left
    rw [lt_div_iff₀ hpos, div_lt_iff₀ hpos]
    exact ⟨hhalf.trans_lt hlow, hhigh⟩
  · right
    rw [le_div_iff₀ hpos, div_le_iff₀ hpos]
    exact ⟨heven, hhalf.trans hlow, hhigh⟩

theorem low_pos {d : Finite64} (hd : d.mantissa ≠ 0) : 0 < d.low := by
  have hone : (1 : ℚ) ≤ d.mantissa := by exact_mod_cast Nat.pos_of_ne_zero hd
  have hpos := Binary64.two_zpow_pos d.exponent
  refine lt_of_lt_of_le ?_ d.half_below_le
  exact mul_pos (by linarith) hpos

theorem high_lt (d : Finite64) : d.high < 2 ^ (53 + d.exponent) := by
  have hle : (d.mantissa : ℚ) ≤ 2 ^ 53 - 1 := by
    have := d.mantissa_lt
    have hcast : d.mantissa + 1 ≤ 2 ^ 53 := by omega
    have : ((d.mantissa + 1 : ℕ) : ℚ) ≤ ((2 ^ 53 : ℕ) : ℚ) := by exact_mod_cast hcast
    push_cast at this
    linarith
  rw [zpow_add₀ two_ne_zero]
  apply mul_lt_mul_of_pos_right _ (Binary64.two_zpow_pos _)
  have : (2 : ℚ) ^ (53 : ℤ) = 2 ^ 53 := by norm_cast
  rw [this]
  linarith

/-- Only a power of two is the double of numbers below the power, unless its exponent is the
    least. -/
theorem mantissa_eq_of_lt {d : Finite64} {x : ℚ} (hx : d.Rounds x) (hlt : x < 2 ^ (52 + d.exponent))
    (hd : Binary64.minExponent < d.exponent) : d.mantissa = 2 ^ 52 := by
  have hge : 2 ^ 52 ≤ d.mantissa := by
    rcases d.normal with h | h
    · exact h
    · omega
  by_contra hne
  have hmore : (2 : ℚ) ^ 52 + 1 ≤ d.mantissa := by
    have : 2 ^ 52 + 1 ≤ d.mantissa := by omega
    exact_mod_cast this
  have hbelow := (d.half_below_le.trans hx.low_le).trans_lt hlt
  rw [zpow_add₀ two_ne_zero] at hbelow
  have := lt_of_mul_lt_mul_right hbelow (Binary64.two_zpow_pos _).le
  have hpow : (2 : ℚ) ^ (52 : ℤ) = 2 ^ 52 := by norm_cast
  rw [hpow] at this
  linarith

/-- Below a power of two the next exponent is used, and the mantissa that is nearest is one too
    large for it. -/
theorem isNearest_below {d : Finite64} {x : ℚ} (hx : d.Rounds x) (hlt : x < 2 ^ (52 + d.exponent))
    (hd : Binary64.minExponent < d.exponent) :
    Binary64.IsNearest (2 ^ 53) (x / 2 ^ (d.exponent - 1)) ∧ 2 ^ (52 + (d.exponent - 1)) ≤ x := by
  have hmantissa := mantissa_eq_of_lt hx hlt hd
  have hlow : ((2 : ℚ) ^ 53 - 1 / 2) * 2 ^ (d.exponent - 1) ≤ x := by
    refine le_trans (le_of_eq ?_) hx.low_le
    have hgap : d.lowGap = 1 := if_pos ⟨hmantissa, hd⟩
    rw [low, hgap, hmantissa, zpow_sub_one₀ two_ne_zero]
    push_cast
    ring
  have hhigh : x < 2 ^ 53 * 2 ^ (d.exponent - 1) := by
    refine hlt.trans_eq ?_
    rw [zpow_add₀ two_ne_zero, zpow_sub_one₀ two_ne_zero]
    norm_num
    ring
  have hpos := Binary64.two_zpow_pos (d.exponent - 1)
  constructor
  · right
    push_cast
    rw [le_div_iff₀ hpos, div_le_iff₀ hpos]
    exact ⟨by decide, hlow, by linarith⟩
  · rw [zpow_add₀ two_ne_zero]
    refine le_trans (mul_le_mul_of_nonneg_right ?_ hpos.le) hlow
    norm_num

/-- **Every fraction between the midpoints is rounded to the double.** -/
theorem ofRatio_eq {d : Finite64} (hd : d.mantissa ≠ 0) {num den : ℕ} (hden : den ≠ 0)
    (hx : d.Rounds (num / den)) (negative : Bool) :
    Binary64.ofRatio negative num den = .finite negative d.mantissa d.exponent := by
  have hnum : num ≠ 0 := by
    intro hzero
    have := (low_pos hd).trans_le hx.low_le
    simp [hzero] at this
  have hhigh := hx.le_high.trans_lt d.high_lt
  have hmax := d.exponent_le
  -- With the exponent of the double itself, its mantissa is the nearest.
  have hsame (he : Binary64.exponentFor num den = d.exponent) :
      Binary64.ofRatio negative num den = .finite negative d.mantissa d.exponent := by
    rw [Binary64.ofRatio_of_isNearest hnum hden negative he (isNearest hx)]
    rw [if_neg (Nat.ne_of_lt d.mantissa_lt), if_neg (Nat.ne_of_lt d.mantissa_lt), if_neg (by omega)]
  rcases Int.lt_or_eq_of_le d.exponent_ge with hmin | hmin
  · by_cases hlow : (2 : ℚ) ^ (52 + d.exponent) ≤ num / den
    · exact hsame (Binary64.exponentFor_eq hnum hden d.exponent_ge hlow hhigh)
    · have hlt := not_le.mp hlow
      obtain ⟨hnearest, hge⟩ := isNearest_below hx hlt hmin
      have he : Binary64.exponentFor num den = d.exponent - 1 := by
        apply Binary64.exponentFor_eq hnum hden (by omega) hge
        rwa [show 53 + (d.exponent - 1) = 52 + d.exponent by omega]
      rw [Binary64.ofRatio_of_isNearest hnum hden negative he hnearest, if_pos rfl, if_pos rfl,
        if_neg (by omega), mantissa_eq_of_lt hx hlt hmin, Int.sub_add_cancel]
  · apply hsame
    rw [← hmin] at hhigh ⊢
    exact Binary64.exponentFor_eq_min hnum hden hhigh

/-! ## 5. Decimals -/

theorem ten_zpow_pos (e : ℤ) : (0 : ℚ) < 10 ^ e := by positivity

/-- Three powers of two are less than a power of ten. -/
theorem two_zpow_lt_ten_zpow {a b : ℕ} (hb : b ≠ 0) (h : a ≤ 3 * b) :
    (2 : ℚ) ^ (a : ℤ) < 10 ^ (b : ℤ) := by
  rw [zpow_natCast, zpow_natCast]
  calc (2 : ℚ) ^ a ≤ 2 ^ (3 * b) := pow_le_pow_right₀ (by norm_num) h
    _ = 8 ^ b := by rw [pow_mul]; norm_num
    _ < 10 ^ b := pow_lt_pow_left₀ (by norm_num) (by norm_num) hb

/-- A decimal with too large an exponent is no double. -/
theorem exponent_le_of_rounds {d : Finite64} {digits : ℕ} {e : ℤ} (hdigits : digits ≠ 0)
    (hx : d.Rounds (digits * 10 ^ e)) : e ≤ 400 := by
  by_contra hlt
  have hone : (1 : ℚ) ≤ digits := by exact_mod_cast Nat.pos_of_ne_zero hdigits
  have hpower : (10 : ℚ) ^ (400 : ℤ) ≤ 10 ^ e := zpow_le_zpow_right₀ (by norm_num) (by omega)
  have hbound : (2 : ℚ) ^ (53 + d.exponent) ≤ 2 ^ (1024 : ℤ) := by
    have := d.exponent_le
    exact zpow_le_zpow_right₀ (by norm_num) (by unfold Binary64.maxExponent at this; omega)
  have hsmall : (2 : ℚ) ^ (1024 : ℤ) < 10 ^ (400 : ℤ) :=
    two_zpow_lt_ten_zpow (by decide) (by decide)
  have hmore : (10 : ℚ) ^ e ≤ digits * 10 ^ e :=
    le_mul_of_one_le_left (ten_zpow_pos e).le hone
  have hless : digits * (10 : ℚ) ^ e < 2 ^ (53 + d.exponent) := hx.le_high.trans_lt d.high_lt
  exact lt_irrefl _ ((((hless.trans_le hbound).trans hsmall).trans_le hpower).trans_le hmore)

/-- A decimal with too small an exponent for its digits is no double but zero. -/
theorem exponent_ge_of_rounds {d : Finite64} (hd : d.mantissa ≠ 0) {digits : ℕ} {e : ℤ}
    (hx : d.Rounds (digits * 10 ^ e)) : -(400 + digits.log2 : ℤ) ≤ e := by
  by_contra hlt
  have hdigits : (digits : ℚ) < 10 ^ ((digits.log2 : ℤ) + 1) := by
    have hnat : digits < 10 ^ (digits.log2 + 1) :=
      Nat.lt_log2_self.trans_le (Nat.pow_le_pow_left (by decide) _)
    exact_mod_cast hnat
  have hpower : (10 : ℚ) ^ e ≤ 10 ^ (-(401 + digits.log2 : ℤ)) :=
    zpow_le_zpow_right₀ (by norm_num) (by omega)
  have hless : digits * (10 : ℚ) ^ e < 10 ^ (-400 : ℤ) := by
    calc digits * (10 : ℚ) ^ e
        < 10 ^ ((digits.log2 : ℤ) + 1) * 10 ^ e := mul_lt_mul_of_pos_right hdigits (ten_zpow_pos e)
      _ ≤ 10 ^ ((digits.log2 : ℤ) + 1) * 10 ^ (-(401 + digits.log2 : ℤ)) :=
          mul_le_mul_of_nonneg_left hpower (ten_zpow_pos _).le
      _ = 10 ^ (-400 : ℤ) := by rw [← zpow_add₀ (by norm_num)]; congr 1; ring
  have hlow : (2 : ℚ) ^ (-1075 : ℤ) ≤ d.low := by
    have hone : (1 : ℚ) ≤ d.mantissa := by exact_mod_cast Nat.pos_of_ne_zero hd
    have hmin : (2 : ℚ) ^ (-1074 : ℤ) ≤ 2 ^ d.exponent :=
      zpow_le_zpow_right₀ (by norm_num) d.exponent_ge
    refine le_trans ?_ d.half_below_le
    calc (2 : ℚ) ^ (-1075 : ℤ) = 1 / 2 * 2 ^ (-1074 : ℤ) := by
          rw [show (-1075 : ℤ) = -1 + -1074 by norm_num, zpow_add₀ two_ne_zero, zpow_neg_one,
            one_div]
      _ ≤ (d.mantissa - 1 / 2) * 2 ^ d.exponent :=
          mul_le_mul (by linarith) hmin (Binary64.two_zpow_pos _).le (by linarith)
  have hsmall : (10 : ℚ) ^ (-400 : ℤ) < 2 ^ (-1075 : ℤ) := by
    rw [zpow_neg, zpow_neg, inv_lt_inv₀ (ten_zpow_pos _) (Binary64.two_zpow_pos _)]
    exact two_zpow_lt_ten_zpow (by decide) (by decide)
  exact lt_irrefl _ (((hlow.trans hx.low_le).trans_lt hless).trans hsmall)

/-- **Every decimal between the midpoints is rounded to the double.** -/
theorem ofDecimal_eq {d : Finite64} (hd : d.mantissa ≠ 0) {digits : ℕ} {e : ℤ}
    (hx : d.Rounds (digits * 10 ^ e)) (negative : Bool) :
    Binary64.ofDecimal negative digits e = .finite negative d.mantissa d.exponent := by
  have hdigits : digits ≠ 0 := by
    intro hzero
    have := (low_pos hd).trans_le hx.low_le
    simp [hzero] at this
  have hhigh := exponent_le_of_rounds hdigits hx
  have hlow := exponent_ge_of_rounds hd hx
  unfold Binary64.ofDecimal
  rw [if_neg hdigits, if_neg (by omega), if_neg (by omega)]
  by_cases he : e < 0
  · rw [if_pos he]
    obtain ⟨n, rfl⟩ : ∃ n : ℕ, e = -n := ⟨e.natAbs, by omega⟩
    apply ofRatio_eq hd (Nat.pow_pos (by decide)).ne'
    simpa [div_eq_mul_inv] using hx
  · rw [if_neg he]
    obtain ⟨n, rfl⟩ : ∃ n : ℕ, e = n := ⟨e.natAbs, by omega⟩
    apply ofRatio_eq hd one_ne_zero
    simpa using hx

end Finite64

end TemplateTree
