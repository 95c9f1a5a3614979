import Mathlib.Data.List.TakeWhile
import TemplateTree.Number.Numeral
import TemplateTree.Number.Shortest
import TemplateTree.Proofs.Number.Rounding

/-!
# Shortest decimals are read back

The decimal that is written for a double lies between the midpoints of the double with its neighbours
(`Shortest.rounds_numeral`), so that it is rounded to the double when it is read. The layout of its
digits does not change the number (`Shortest.layout_cases`), and a numeral with a point is read as the
number that it shows (`Numeral.decimal?_pointed`).
-/

namespace TemplateTree

/-! ## 1. Nearest numbers -/

namespace Binary64

/-- The rounded quotient is at most half a unit away. -/
theorem roundDiv_near {num den : ℕ} (hden : 0 < den) :
    (roundDiv num den - 1 / 2 : ℚ) ≤ num / den ∧ (num : ℚ) / den ≤ roundDiv num den + 1 / 2 := by
  have hpos : (0 : ℚ) < den := by exact_mod_cast hden
  have hnum : den * (num / den) + num % den = num := Nat.div_add_mod num den
  have hrest : num % den < den := Nat.mod_lt num hden
  have hbounds : 2 * roundDiv num den * den ≤ 2 * num + den ∧
      2 * num ≤ (2 * roundDiv num den + 1) * den := by
    unfold roundDiv
    dsimp only
    generalize num / den = quotient at *
    generalize num % den = rest at *
    split
    · constructor <;> nlinarith
    · split
      · constructor <;> nlinarith
      · split <;> constructor <;> nlinarith
  have hlow : (2 : ℚ) * roundDiv num den * den ≤ 2 * num + den := by exact_mod_cast hbounds.1
  have hhigh : (2 : ℚ) * num ≤ (2 * roundDiv num den + 1) * den := by exact_mod_cast hbounds.2
  rw [le_div_iff₀ hpos, div_le_iff₀ hpos]
  constructor <;> linarith

end Binary64

namespace Shortest

/-! ## 2. Decimal grids -/

theorem scaleDown_value (num den : ℕ) (e : ℤ) :
    ((scaleDown num den e).1 : ℚ) / (scaleDown num den e).2 = num / den / 10 ^ e := by
  exact_mod_cast scaleBy_value 10 num den e

theorem scaleDown_pos {num den : ℕ} (hden : 0 < den) (e : ℤ) : 0 < (scaleDown num den e).2 :=
  scaleBy_pos 10 hden e

/-- Some quarters of the last place of a double, on a decimal grid. -/
def onScale (quarters : ℕ) (q e : ℤ) : ℕ × ℕ :=
  scaleDown (quarters * (Binary64.scaleDown 1 4 (-q)).1) (Binary64.scaleDown 1 4 (-q)).2 e

theorem onScale_pos (quarters : ℕ) (q e : ℤ) : 0 < (onScale quarters q e).2 :=
  scaleDown_pos (Binary64.scaleDown_pos (by decide) _) _

theorem onScale_value (quarters : ℕ) (q e : ℤ) :
    ((onScale quarters q e).1 : ℚ) / (onScale quarters q e).2 = quarters / 4 * 2 ^ q / 10 ^ e := by
  have hunit := Binary64.scaleDown_value 1 4 (-q)
  rw [onScale, scaleDown_value]
  push_cast
  rw [mul_div_assoc, hunit, zpow_neg, div_inv_eq_mul]
  push_cast
  ring

section

variable (quarters n : ℕ) (q e : ℤ)

theorem onScale_le_iff :
    (onScale quarters q e).1 ≤ n * (onScale quarters q e).2 ↔
      (quarters / 4 * 2 ^ q : ℚ) ≤ n * 10 ^ e := by
  have hpos : (0 : ℚ) < (onScale quarters q e).2 := by exact_mod_cast onScale_pos quarters q e
  rw [← div_le_iff₀ (Finite64.ten_zpow_pos e), ← onScale_value, div_le_iff₀ hpos]
  norm_cast

theorem le_onScale_iff :
    n * (onScale quarters q e).2 ≤ (onScale quarters q e).1 ↔
      n * 10 ^ e ≤ (quarters / 4 * 2 ^ q : ℚ) := by
  have hpos : (0 : ℚ) < (onScale quarters q e).2 := by exact_mod_cast onScale_pos quarters q e
  rw [← le_div_iff₀ (Finite64.ten_zpow_pos e), ← onScale_value, le_div_iff₀ hpos]
  norm_cast

end

/-- The test whether a number on a grid is rounded to a double. -/
def isInside (d : Finite64) (e : ℤ) (n : ℕ) : Bool :=
  let low := onScale (4 * d.mantissa - d.lowGap) d.exponent e
  let high := onScale (4 * d.mantissa + 2) d.exponent e
  if d.mantissa % 2 = 0 then low.1 ≤ n * low.2 && n * high.2 ≤ high.1
  else low.1 < n * low.2 && n * high.2 < high.1

/-- The number on a grid that is nearest to a double. -/
def nearest (d : Finite64) (e : ℤ) : ℕ :=
  let value := onScale (4 * d.mantissa) d.exponent e
  Binary64.roundDiv value.1 value.2

/-- What is written on a grid: the nearest number that is rounded to the double, or else one of its
    two neighbours that is. -/
theorem onGrid?_eq (d : Finite64) (e : ℤ) :
    onGrid? d.mantissa d.exponent e =
      if isInside d e (nearest d e) then some ⟨nearest d e, e⟩
      else
        let value := onScale (4 * d.mantissa) d.exponent e
        if isInside d e (value.1 / value.2) then some ⟨value.1 / value.2, e⟩
        else if isInside d e (value.1 / value.2 + 1) then some ⟨value.1 / value.2 + 1, e⟩
        else none := rfl

theorem low_eq {d : Finite64} (hd : d.mantissa ≠ 0) :
    ((4 * d.mantissa - d.lowGap : ℕ) / 4 * 2 ^ d.exponent : ℚ) = d.low := by
  have hle : d.lowGap ≤ 4 * d.mantissa := by
    have := d.lowGap_le
    omega
  rw [Nat.cast_sub hle, Finite64.low]
  push_cast
  ring

theorem high_eq (d : Finite64) :
    ((4 * d.mantissa + 2 : ℕ) / 4 * 2 ^ d.exponent : ℚ) = d.high := by
  rw [Finite64.high]
  push_cast
  ring

/-- **The test on a grid decides which numbers are rounded to the double.** -/
theorem isInside_iff {d : Finite64} (hd : d.mantissa ≠ 0) (e : ℤ) (n : ℕ) :
    isInside d e n = true ↔ d.Rounds (n * 10 ^ e) := by
  unfold isInside Finite64.Rounds
  dsimp only
  by_cases heven : d.mantissa % 2 = 0
  · rw [if_pos heven, Bool.and_eq_true, decide_eq_true_eq, decide_eq_true_eq, onScale_le_iff,
      le_onScale_iff, low_eq hd, high_eq]
    constructor
    · exact fun h => .inr ⟨heven, h⟩
    · intro h
      rcases h with h | h
      · exact ⟨h.1.le, h.2.le⟩
      · exact h.2
  · rw [if_neg heven, Bool.and_eq_true, decide_eq_true_eq, decide_eq_true_eq, ← not_le, ← not_le,
      onScale_le_iff, le_onScale_iff, low_eq hd, high_eq, not_le, not_le]
    constructor
    · exact .inl
    · intro h
      rcases h with h | h
      · exact h
      · exact absurd h.1 heven

theorem rounds_of_onGrid? {d : Finite64} (hd : d.mantissa ≠ 0) {e : ℤ} {n : Numeral}
    (h : onGrid? d.mantissa d.exponent e = some n) : d.Rounds (n.digits * 10 ^ n.exponent) := by
  rw [onGrid?_eq] at h
  dsimp only at h
  split at h
  · rename_i hinside
    obtain rfl := Option.some.inj h
    exact (isInside_iff hd e _).mp hinside
  · split at h
    · rename_i hinside
      obtain rfl := Option.some.inj h
      exact (isInside_iff hd e _).mp hinside
    · split at h
      · rename_i hinside
        obtain rfl := Option.some.inj h
        exact (isInside_iff hd e _).mp hinside
      · cases h

/-- **A grid that is finer than half the last place has a number that is rounded to the double.** -/
theorem exists_onGrid? {d : Finite64} (hd : d.mantissa ≠ 0) {e : ℤ}
    (he : 2 * (10 : ℚ) ^ e < 2 ^ d.exponent) :
    ∃ n, onGrid? d.mantissa d.exponent e = some n := by
  have hten := Finite64.ten_zpow_pos e
  have hnear : (nearest d e - 1 / 2 : ℚ) ≤ _ ∧ _ ≤ (nearest d e + 1 / 2 : ℚ) :=
    Binary64.roundDiv_near (onScale_pos (4 * d.mantissa) d.exponent e)
  rw [onScale_value, le_div_iff₀ hten, div_le_iff₀ hten] at hnear
  have hvalue : ((4 * d.mantissa : ℕ) / 4 * 2 ^ d.exponent : ℚ) = d.mantissa * 2 ^ d.exponent := by
    push_cast
    ring
  rw [hvalue] at hnear
  have hgap : (1 : ℚ) ≤ d.lowGap := by
    unfold Finite64.lowGap
    split <;> norm_num
  have hquarter : 2 ^ d.exponent ≤ d.lowGap * (2 : ℚ) ^ d.exponent :=
    le_mul_of_one_le_left (Binary64.two_zpow_pos _).le hgap
  have hrounds : d.Rounds (nearest d e * 10 ^ e) := by
    left
    unfold Finite64.low Finite64.high
    constructor <;> linarith
  rw [onGrid?_eq, if_pos ((isInside_iff hd e _).mpr hrounds)]
  exact ⟨_, rfl⟩

/-! ## 3. The search -/

theorem rounds_search {d : Finite64} (hd : d.mantissa ≠ 0) {count : ℕ} {e : ℤ}
    (hlast : ∃ n, onGrid? d.mantissa d.exponent (e - count) = some n) :
    d.Rounds ((search d.mantissa d.exponent count e).digits
      * 10 ^ (search d.mantissa d.exponent count e).exponent) := by
  induction count generalizing e with
  | zero =>
    obtain ⟨n, hn⟩ := hlast
    rw [Nat.cast_zero, Int.sub_zero] at hn
    rw [search, hn]
    exact rounds_of_onGrid? hd hn
  | succ count ih =>
    rw [search]
    cases hgrid : onGrid? d.mantissa d.exponent e with
    | some n => exact rounds_of_onGrid? hd hgrid
    | none =>
      apply ih
      rwa [show e - 1 - (count : ℤ) = e - (count + 1 : ℕ) by push_cast; ring]

theorem pow_digitCount_le {n : ℕ} (hn : n ≠ 0) : 10 ^ (digitCount n - 1) ≤ n := by
  by_cases hone : digitCount n - 1 = 0
  · rw [hone]
    exact Nat.one_le_iff_ne_zero.mpr hn
  · by_contra hlt
    have := (Nat.length_toDigits_le_iff (by decide) (by omega)).mpr (not_le.mp hlt)
    unfold digitCount at *
    omega

theorem lt_pow_digitCount (n : ℕ) : n < 10 ^ digitCount n :=
  (Nat.length_toDigits_le_iff (by decide) Nat.length_toDigits_pos).mp (Nat.le_refl _)

/-- The first digit of a fraction is not in front of where it is looked for. -/
theorem leadingExponent_le {num den : ℕ} (hnum : num ≠ 0) (hden : den ≠ 0) :
    (10 : ℚ) ^ leadingExponent num den ≤ num / den := by
  have hpos : (0 : ℚ) < den := by exact_mod_cast Nat.pos_of_ne_zero hden
  unfold leadingExponent
  by_cases hle : den ≤ num
  · rw [if_pos hle, le_div_iff₀ hpos]
    have hquotient : num / den ≠ 0 := (Nat.div_pos hle (Nat.pos_of_ne_zero hden)).ne'
    have hcount : (digitCount (num / den) : ℤ) - 1 = (digitCount (num / den) - 1 : ℕ) := by
      have : 0 < digitCount (num / den) := Nat.length_toDigits_pos
      omega
    have hnat : 10 ^ (digitCount (num / den) - 1) * den ≤ num :=
      le_trans (Nat.mul_le_mul_right den (pow_digitCount_le hquotient)) (Nat.div_mul_le_self num den)
    rw [hcount, zpow_natCast]
    exact_mod_cast hnat
  · rw [if_neg hle, zpow_neg, zpow_natCast, inv_le_iff_one_le_mul₀ (by positivity), mul_comm,
      ← div_le_iff₀ (by positivity), one_div_div]
    have hnumpos : (0 : ℚ) < num := by exact_mod_cast Nat.pos_of_ne_zero hnum
    rw [div_le_iff₀ hnumpos]
    set ceiling := (den + num - 1) / num with hceiling
    have hnat : den ≤ 10 ^ digitCount (ceiling - 1) * num := by
      have hlt := lt_pow_digitCount (ceiling - 1)
      have hmod := Nat.div_add_mod (den + num - 1) num
      have hrest := Nat.mod_lt (den + num - 1) (Nat.pos_of_ne_zero hnum)
      have hle : den ≤ ceiling * num := by
        rw [← hceiling] at hmod
        rw [Nat.mul_comm]
        omega
      exact hle.trans (Nat.mul_le_mul_right num (by omega))
    exact_mod_cast hnat

/-- **The decimal that is written is rounded to the double.** -/
theorem rounds_numeral {d : Finite64} (hd : d.mantissa ≠ 0) :
    d.Rounds ((numeral d.mantissa d.exponent).digits
      * 10 ^ (numeral d.mantissa d.exponent).exponent) := by
  have hvalue := Binary64.scaleDown_value d.mantissa 1 (-d.exponent)
  have hden : 0 < (Binary64.scaleDown d.mantissa 1 (-d.exponent)).2 :=
    Binary64.scaleDown_pos Nat.one_pos (-d.exponent)
  have hpos := Binary64.two_zpow_pos d.exponent
  unfold numeral
  dsimp only
  generalize Binary64.scaleDown d.mantissa 1 (-d.exponent) = fraction at *
  rw [Nat.cast_one, div_one, zpow_neg, div_inv_eq_mul] at hvalue
  have hnum : fraction.1 ≠ 0 := by
    intro hzero
    rw [hzero, Nat.cast_zero, zero_div] at hvalue
    have := (mul_eq_zero.mp hvalue.symm).resolve_right hpos.ne'
    exact hd (by exact_mod_cast this)
  apply rounds_search hd
  apply exists_onGrid? hd
  have hlead := leadingExponent_le hnum hden.ne'
  rw [hvalue] at hlead
  have hmantissa : (d.mantissa : ℚ) < 2 ^ 53 := by exact_mod_cast d.mantissa_lt
  rw [zpow_sub₀ (by norm_num)]
  push_cast
  have hless : (d.mantissa : ℚ) * 2 ^ d.exponent < 2 ^ 53 * 2 ^ d.exponent :=
    mul_lt_mul_of_pos_right hmantissa hpos
  rw [← mul_div_assoc, div_lt_iff₀ (by norm_num)]
  norm_num at hless ⊢
  linarith

/-! ## 4. The layout -/

/-- The number with some decimal digits. -/
def digitsNumber (ds : List Char) : ℕ := Nat.ofDigitChars 10 ds 0

theorem digitsNumber_append (ds es : List Char) :
    digitsNumber (ds ++ es) = digitsNumber ds * 10 ^ es.length + digitsNumber es := by
  unfold digitsNumber
  rw [Nat.ofDigitChars_append, Nat.ofDigitChars_eq_ofDigitChars_zero, Nat.mul_comm]

theorem digitsNumber_replicate (n : ℕ) : digitsNumber (List.replicate n '0') = 0 := by
  simp [digitsNumber, Nat.ofDigitChars_replicate_zero]

/-- Only zeros are trimmed. -/
theorem exists_trimZeros (ds : List Char) : ∃ n, ds = trimZeros ds ++ List.replicate n '0' := by
  have hsplit := List.takeWhile_append_dropWhile (p := (· == '0')) (l := ds.reverse)
  have hzeros : ds.reverse.takeWhile (· == '0')
      = List.replicate (ds.reverse.takeWhile (· == '0')).length '0' := by
    rw [List.eq_replicate_iff]
    refine ⟨rfl, fun c hc => ?_⟩
    simpa using List.mem_takeWhile_imp hc
  refine ⟨(ds.reverse.takeWhile (· == '0')).length, ?_⟩
  have hback := congrArg List.reverse hsplit
  rw [List.reverse_append, List.reverse_reverse, hzeros, List.reverse_replicate] at hback
  exact hback.symm

/-- The digits that are written for a double: there is at least one, and with their exponent they are
    a number that is rounded to it. -/
theorem digits_rounds {d : Finite64} (hd : d.mantissa ≠ 0) :
    ∃ ds point, positive d.mantissa d.exponent = layout ds point ∧ ds ≠ [] ∧
      (∀ c ∈ ds, c.isDigit = true) ∧ d.Rounds (digitsNumber ds * 10 ^ (point - ds.length : ℤ)) := by
  have hrounds := rounds_numeral hd
  unfold positive
  dsimp only
  generalize numeral d.mantissa d.exponent = n at *
  obtain ⟨zeros, hzeros⟩ := exists_trimZeros (Nat.toDigits 10 n.digits)
  have hnumber : n.digits = digitsNumber (trimZeros (Nat.toDigits 10 n.digits)) * 10 ^ zeros := by
    have hall : digitsNumber (Nat.toDigits 10 n.digits) = n.digits := Nat.ofDigitChars_ten_toDigits
    rw [hzeros, digitsNumber_append, digitsNumber_replicate, List.length_replicate, Nat.add_zero]
      at hall
    exact hall.symm
  have hlength : (Nat.toDigits 10 n.digits).length
      = (trimZeros (Nat.toDigits 10 n.digits)).length + zeros := by
    have := congrArg List.length hzeros
    rwa [List.length_append, List.length_replicate] at this
  have hmem : ∀ c ∈ trimZeros (Nat.toDigits 10 n.digits), c ∈ Nat.toDigits 10 n.digits := by
    intro c hc
    rw [hzeros]
    exact List.mem_append_left _ hc
  generalize trimZeros (Nat.toDigits 10 n.digits) = ds at *
  refine ⟨ds, _, rfl, ?_, ?_, ?_⟩
  · intro hnil
    have hzero : n.digits = 0 := by rw [hnumber, hnil]; exact Nat.zero_mul _
    have := (Finite64.low_pos hd).trans_le hrounds.low_le
    rw [hzero, Nat.cast_zero, zero_mul] at this
    exact lt_irrefl _ this
  · exact fun c hc => Nat.isDigit_of_mem_toDigits (by decide) (by decide) (hmem c hc)
  · rw [hnumber] at hrounds
    have hsum : ((Nat.toDigits 10 n.digits).length + n.exponent - ds.length : ℤ)
        = zeros + n.exponent := by
      rw [hlength]
      push_cast
      ring
    rw [hsum, zpow_add₀ (by norm_num), zpow_natCast]
    push_cast at hrounds
    rwa [← mul_assoc]

/-- What stands behind the digits of a decimal: its exponent, if it has one. -/
def powerChars : Option ℤ → List Char
  | none => []
  | some e => 'e' :: exponentText e

/-- A decimal with a point: the digits in front of the point, the digits behind it, and an exponent,
    if it has one. -/
structure Pointed where
  whole : List Char
  fraction : List Char
  exponent? : Option ℤ
  whole_ne : whole ≠ []
  isDigit_whole : ∀ c ∈ whole, c.isDigit = true
  isDigit_fraction : ∀ c ∈ fraction, c.isDigit = true

namespace Pointed

/-- The characters of a decimal with a point. -/
def chars (p : Pointed) : List Char :=
  p.whole ++ '.' :: (p.fraction ++ powerChars p.exponent?)

/-- The digits of a decimal with a point, as one number. -/
def digits (p : Pointed) : ℕ := digitsNumber (p.whole ++ p.fraction)

/-- The exponent of the last digit. -/
def lastExponent (p : Pointed) : ℤ := p.exponent?.getD 0 - p.fraction.length

/-- The number that a decimal with a point shows. -/
def number (p : Pointed) : ℚ := p.digits * 10 ^ p.lastExponent

end Pointed

section

variable {ds : List Char} (hds : ∀ c ∈ ds, c.isDigit = true)

include hds

/-- Digits behind the point and some zeros. -/
theorem pointed_behind {point : ℤ} (hpoint : point ≤ 0) :
    ∃ p : Pointed, ['0', '.'] ++ List.replicate point.natAbs '0' ++ ds = p.chars ∧
      p.number = digitsNumber ds * 10 ^ (point - ds.length) := by
  have hzeros : ∀ c ∈ List.replicate point.natAbs '0' ++ ds, c.isDigit = true := by
    intro c hc
    rcases List.mem_append.mp hc with hc | hc
    · rw [List.eq_of_mem_replicate hc]
      rfl
    · exact hds c hc
  refine ⟨⟨['0'], List.replicate point.natAbs '0' ++ ds, none, by simp, by simp, hzeros⟩,
    by simp [Pointed.chars, powerChars], ?_⟩
  have hdigits : digitsNumber (['0'] ++ (List.replicate point.natAbs '0' ++ ds)) = digitsNumber ds := by
    rw [← List.append_assoc, ← List.replicate_one, ← List.replicate_add, digitsNumber_append,
      digitsNumber_replicate, Nat.zero_mul, Nat.zero_add]
  rw [Pointed.number, Pointed.digits, hdigits, Pointed.lastExponent, List.length_append,
    List.length_replicate]
  congr 2
  dsimp only [Option.getD_none]
  omega

/-- Digits and some zeros in front of the point. -/
theorem pointed_before (hne : ds ≠ []) (zeros : ℕ) :
    ∃ p : Pointed, ds ++ List.replicate zeros '0' ++ ['.', '0'] = p.chars ∧
      p.number = digitsNumber ds * 10 ^ (zeros : ℤ) := by
  have hzeros : ∀ c ∈ ds ++ List.replicate zeros '0', c.isDigit = true := by
    intro c hc
    rcases List.mem_append.mp hc with hc | hc
    · exact hds c hc
    · rw [List.eq_of_mem_replicate hc]
      rfl
  refine ⟨⟨ds ++ List.replicate zeros '0', ['0'], none, by simp [hne], hzeros, by simp⟩,
    by simp [Pointed.chars, powerChars], ?_⟩
  have hdigits : digitsNumber (ds ++ List.replicate zeros '0' ++ ['0'])
      = digitsNumber ds * 10 ^ (zeros + 1) := by
    rw [List.append_assoc, ← List.replicate_one, ← List.replicate_add, digitsNumber_append,
      digitsNumber_replicate, List.length_replicate, Nat.add_zero]
  rw [Pointed.number, Pointed.digits, hdigits, Pointed.lastExponent]
  push_cast
  rw [mul_assoc, ← zpow_natCast, ← zpow_add₀ (by norm_num)]
  congr 2
  simp only [Option.getD_none, List.length_singleton]
  omega

/-- Digits with the point behind some of them. -/
theorem pointed_within {count : ℕ} (hpos : 0 < count) (hcount : count < ds.length)
    (exponent? : Option ℤ) :
    ∃ p : Pointed, ds.take count ++ '.' :: (ds.drop count ++ powerChars exponent?) = p.chars ∧
      p.number = digitsNumber ds * 10 ^ (exponent?.getD 0 + count - ds.length) := by
  refine ⟨⟨ds.take count, ds.drop count, exponent?, ?_, fun c hc => hds c (List.mem_of_mem_take hc),
    fun c hc => hds c (List.mem_of_mem_drop hc)⟩, rfl, ?_⟩
  · rw [ne_eq, List.take_eq_nil_iff, ← List.length_eq_zero_iff]
    omega
  · rw [Pointed.number, Pointed.digits, List.take_append_drop, Pointed.lastExponent, List.length_drop]
    congr 2
    dsimp only
    omega

/-- **The layout does not change the number.** Without a point it is one digit with an exponent. -/
theorem layout_cases (hne : ds ≠ []) (point : ℤ) :
    (∃ p : Pointed, layout ds point = p.chars ∧
      p.number = digitsNumber ds * 10 ^ (point - ds.length)) ∨
      ∃ c e, layout ds point = c :: powerChars (some e) ∧ c.isDigit = true := by
  unfold layout
  have hlength : 0 < ds.length := List.length_pos_iff.mpr hne
  by_cases hplain : -4 < point ∧ point ≤ 16
  · left
    rw [if_pos hplain]
    by_cases hsmall : point ≤ 0
    · rw [if_pos hsmall]
      exact pointed_behind hds hsmall
    rw [if_neg hsmall]
    by_cases hlong : ds.length ≤ point.natAbs
    · rw [if_pos hlong, show point - ds.length = (point.natAbs - ds.length : ℕ) by omega]
      exact pointed_before hds hne _
    · obtain ⟨p, hchars, hnumber⟩ := pointed_within hds (show 0 < point.natAbs by omega)
        (by omega) none
      rw [powerChars, List.append_nil] at hchars
      rw [if_neg hlong, show point - ds.length = Option.getD none 0 + point.natAbs - ds.length by
        rw [Option.getD_none]; omega]
      exact ⟨p, hchars, hnumber⟩
  · rw [if_neg hplain]
    dsimp only
    by_cases hone : ds.drop 1 = []
    · right
      obtain ⟨c, rest, rfl⟩ := List.exists_cons_of_ne_nil hne
      rw [hone]
      exact ⟨c, point - 1, rfl, hds c (by simp)⟩
    · left
      have hmore : 1 < ds.length := by
        rw [List.drop_eq_nil_iff] at hone
        omega
      obtain ⟨p, hchars, hnumber⟩ := pointed_within hds Nat.one_pos hmore (some (point - 1))
      refine ⟨p, ?_, ?_⟩
      · rw [← hchars, if_neg (by simpa using hone), powerChars, List.append_assoc, List.cons_append]
      · rw [hnumber]
        congr 2
        rw [Option.getD_some]
        omega

end

end Shortest

namespace Numeral

/-! ## 5. Reading -/

open Shortest

theorem baseDigit?_of_isDigit {c : Char} (h : c.isDigit = true) :
    baseDigit? c = some (c.toNat - '0'.toNat) ∧ c.toNat - '0'.toNat < 10 := by
  have hbounds := Char.isDigit_iff_toNat.mp h
  have hrange : '0' ≤ c ∧ c ≤ '9' := by
    rw [Char.le_def, Char.le_def, UInt32.le_iff_toNat_le, UInt32.le_iff_toNat_le]
    exact hbounds
  have hlast : '9'.toNat = '0'.toNat + 9 := rfl
  rw [baseDigit?, if_pos hrange]
  exact ⟨rfl, by omega⟩

/-- Decimal digits are read as the number that they write. -/
theorem natural?_eq {ds : List Char} (hds : ∀ c ∈ ds, c.isDigit = true) (value : ℕ) :
    natural? 10 value ds = some (Nat.ofDigitChars 10 ds value) := by
  induction ds generalizing value with
  | nil => rfl
  | cons c ds ih =>
    obtain ⟨hdigit, hlt⟩ := baseDigit?_of_isDigit (hds c (by simp))
    rw [natural?, hdigit]
    dsimp only
    rw [if_pos hlt, ih fun d hd => hds d (by simp [hd]), Nat.ofDigitChars_cons, Nat.mul_comm value]

theorem isDigit_toDigits (n : ℕ) : ∀ c ∈ Nat.toDigits 10 n, c.isDigit = true := fun _ hc =>
  Nat.isDigit_of_mem_toDigits (by decide) (by decide) hc

theorem natural?_toDigits (n : ℕ) : natural? 10 0 (Nat.toDigits 10 n) = some n := by
  rw [natural?_eq (isDigit_toDigits n), Nat.ofDigitChars_ten_toDigits]

/-- The digits of an exponent: one zero may stand in front of them. -/
theorem exponentText_eq (e : ℤ) :
    ∃ ds, exponentText e = (if e < 0 then '-' else '+') :: ds ∧ ds ≠ [] ∧
      (∀ c ∈ ds, c.isDigit = true) ∧ natural? 10 0 ds = some e.natAbs := by
  have hdigits := isDigit_toDigits e.natAbs
  refine ⟨_, rfl, ?_⟩
  split
  · refine ⟨by simp, by simpa using hdigits, ?_⟩
    rw [natural?_eq (by simpa using hdigits), Nat.ofDigitChars_cons]
    exact congrArg some Nat.ofDigitChars_ten_toDigits
  · exact ⟨Nat.toDigits_ne_nil, hdigits, natural?_toDigits _⟩

theorem exponent?_exponentText (e : ℤ) : exponent? (exponentText e) = some e := by
  obtain ⟨ds, htext, hne, -, hnatural⟩ := exponentText_eq e
  rw [htext]
  by_cases he : e < 0
  · rw [if_pos he]
    simp only [exponent?, signed, List.isEmpty_iff, hne, if_false, hnatural, if_true]
    exact congrArg some (by dsimp only; omega)
  · rw [if_neg he]
    simp only [exponent?, signed, List.isEmpty_iff, hne, if_false, hnatural]
    exact congrArg some (by simp; omega)

/-- **A decimal with a point is read as the number that it shows.** -/
theorem decimal?_pointed (p : Shortest.Pointed) (negative : Bool) :
    decimal? negative p.chars = some (Binary64.ofDecimal negative p.digits p.lastExponent) := by
  have hstop : (powerChars p.exponent?).takeWhile Char.isDigit = [] ∧
      (powerChars p.exponent?).dropWhile Char.isDigit = powerChars p.exponent? := by
    cases p.exponent? with
    | none => exact ⟨rfl, rfl⟩
    | some e => exact ⟨rfl, rfl⟩
  have hpoint : Char.isDigit '.' = false := rfl
  have hsplit : p.chars.takeWhile Char.isDigit = p.whole ∧
      p.chars.dropWhile Char.isDigit = '.' :: (p.fraction ++ powerChars p.exponent?) := by
    rw [Shortest.Pointed.chars, List.takeWhile_append_of_pos p.isDigit_whole,
      List.dropWhile_append_of_pos p.isDigit_whole]
    simp [hpoint]
  have hfraction : (p.fraction ++ powerChars p.exponent?).takeWhile Char.isDigit = p.fraction ∧
      (p.fraction ++ powerChars p.exponent?).dropWhile Char.isDigit = powerChars p.exponent? := by
    rw [List.takeWhile_append_of_pos p.isDigit_fraction,
      List.dropWhile_append_of_pos p.isDigit_fraction, hstop.1, hstop.2, List.append_nil]
    exact ⟨rfl, rfl⟩
  have hdigits : natural? 10 0 (p.whole ++ p.fraction) = some p.digits :=
    natural?_eq (fun c hc => (List.mem_append.mp hc).elim (p.isDigit_whole c) (p.isDigit_fraction c)) 0
  have hne : (p.whole ++ p.fraction).isEmpty = false := by
    rw [List.isEmpty_eq_false_iff]
    exact fun h => p.whole_ne (List.append_eq_nil_iff.mp h).1
  unfold decimal? Shortest.Pointed.lastExponent
  rw [hsplit.1, hsplit.2]
  simp only [hfraction.1, hfraction.2, hdigits, hne]
  cases p.exponent? with
  | none => rfl
  | some e =>
    simp only [powerChars, exponent?_exponentText]
    rfl

end Numeral

end TemplateTree
