import Mathlib
import MaterialGraph.Number.Binary
import MaterialGraph.Proofs.Number.Rounding

/-!
# Exact values and rounding to a format

A finite floating-point value is a rational number (`Binary.value?`).  Rounding a quotient to a
format first chooses the place of the last bit (`Format.Places`), then takes the nearest multiple of
it (`Format.exists_round`).  From that everything else follows: when the result is infinite
(`Format.round_of_limit_le`, `Format.exists_round_of_lt_limit`), and how far a finite result is from
the quotient (`Format.Rounds.abs_sub_le`).
-/

namespace MaterialGraph

namespace Binary

/-- A size with a sign. -/
def signed (negative : Bool) (size : ℚ) : ℚ :=
  if negative then -size else size

/-- The exact value of a finite number. -/
def value? : Binary → Option ℚ
  | finite negative mantissa exponent => some (signed negative (mantissa * 2 ^ exponent))
  | infinite _ | nan => none

/-! ### Quotients -/

/-- A power of two as a quotient of natural numbers, one of which is one. -/
lemma zpow_eq_div (e : ℤ) :
    (2 : ℚ) ^ e = (Nat.pow 2 e.toNat : ℕ) / (Nat.pow 2 (-e).toNat : ℕ) := by
  rcases le_total 0 e with h | h
  · obtain ⟨k, rfl⟩ := Int.eq_ofNat_of_zero_le h
    simp
  · obtain ⟨k, hk⟩ := Int.eq_ofNat_of_zero_le (Int.neg_nonneg.mpr h)
    obtain rfl : e = -(k : ℤ) := by omega
    simp

/-- The quotient of a finite value is its size. -/
lemma cast_quotient (mantissa : ℕ) (e : ℤ) :
    ((quotient mantissa e).1 : ℚ) / (quotient mantissa e).2 = mantissa * 2 ^ e := by
  rw [zpow_eq_div, ← mul_div_assoc]
  unfold quotient
  push_cast
  rfl

lemma quotient_snd_pos (mantissa : ℕ) (e : ℤ) : 0 < (quotient mantissa e).2 :=
  Nat.pow_pos two_pos

/-- A quotient in units of a power of two. -/
lemma cast_scaled (num den : ℕ) (e : ℤ) :
    ((scaled num den e).1 : ℚ) / (scaled num den e).2 = num / den / 2 ^ e := by
  have hpow : (Nat.pow 2 (-e).toNat : ℚ) ≠ 0 := by
    exact_mod_cast (Nat.pow_pos two_pos).ne'
  rw [zpow_eq_div]
  unfold scaled
  push_cast
  field_simp

lemma scaled_snd_pos {den : ℕ} (num : ℕ) (e : ℤ) (hden : 0 < den) : 0 < (scaled num den e).2 :=
  Nat.mul_pos hden (Nat.pow_pos two_pos)

namespace Format

/-! ### The last place -/

/-- A place that a format may spend on a number: the number fits, and unless the place is the least
one, it would not fit with half the place. -/
structure Places (f : Format) (x : ℚ) (place : ℤ) : Prop where
  least_le : f.least ≤ place
  lt : x < 2 ^ (place + f.precision)
  le : place = f.least ∨ 2 ^ (place + f.precision - 1) ≤ x

/-- The binary logarithms of the sides of a quotient confine it up to a factor of four. -/
lemma log2_bounds {num den : ℕ} (hnum : num ≠ 0) (hden : 0 < den) :
    (2 : ℚ) ^ ((Nat.log2 num : ℤ) - Nat.log2 den - 1) < num / den ∧
      (num : ℚ) / den < 2 ^ ((Nat.log2 num : ℤ) - Nat.log2 den + 1) := by
  have hpos : (0 : ℚ) < den := by exact_mod_cast hden
  have hnum_le : (2 : ℚ) ^ Nat.log2 num ≤ num := by exact_mod_cast Nat.log2_self_le hnum
  have hnum_lt : (num : ℚ) < 2 ^ (Nat.log2 num + 1) := by
    exact_mod_cast Nat.lt_log2_self (n := num)
  have hden_le : (2 : ℚ) ^ Nat.log2 den ≤ den := by exact_mod_cast Nat.log2_self_le hden.ne'
  have hden_lt : (den : ℚ) < 2 ^ (Nat.log2 den + 1) := by
    exact_mod_cast Nat.lt_log2_self (n := den)
  constructor
  · rw [lt_div_iff₀ hpos]
    calc (2 : ℚ) ^ ((Nat.log2 num : ℤ) - Nat.log2 den - 1) * den
        < 2 ^ ((Nat.log2 num : ℤ) - Nat.log2 den - 1) * 2 ^ (Nat.log2 den + 1) := by gcongr
      _ = 2 ^ Nat.log2 num := by
        rw [← zpow_natCast, ← zpow_natCast, ← zpow_add₀ two_ne_zero]
        congr 1
        push_cast
        ring
      _ ≤ num := hnum_le
  · rw [div_lt_iff₀ hpos]
    calc (num : ℚ) < 2 ^ (Nat.log2 num + 1) := hnum_lt
      _ = 2 ^ ((Nat.log2 num : ℤ) - Nat.log2 den + 1) * 2 ^ Nat.log2 den := by
        rw [← zpow_natCast, ← zpow_natCast, ← zpow_add₀ two_ne_zero]
        congr 1
        push_cast
        ring
      _ ≤ 2 ^ ((Nat.log2 num : ℤ) - Nat.log2 den + 1) * den := by gcongr

/-- A quotient has fewer than so many units if it is below so many times the unit. -/
lemma scaled_lt_iff {den : ℕ} (num : ℕ) (e : ℤ) (p : ℕ) (hden : 0 < den) :
    (scaled num den e).1 < (scaled num den e).2 * Nat.pow 2 p ↔
      (num : ℚ) / den < 2 ^ (e + p) := by
  have hunits : (0 : ℚ) < (scaled num den e).2 := by
    exact_mod_cast scaled_snd_pos num e hden
  have hunit : (0 : ℚ) < 2 ^ e := by positivity
  rw [zpow_add₀ two_ne_zero, zpow_natCast, ← div_lt_iff₀' hunit, ← cast_scaled,
    div_lt_iff₀' hunits]
  exact_mod_cast Iff.rfl

/-- The chosen place is one that the format may spend. -/
lemma places_lastPlace (f : Format) (num : ℕ) {den : ℕ} (hden : 0 < den) :
    f.Places (num / den) (f.lastPlace num den) := by
  by_cases hnum : num = 0
  · have hplace : f.lastPlace num den = f.least := if_pos hnum
    rw [hplace, hnum, Nat.cast_zero, zero_div]
    exact ⟨le_rfl, by positivity, Or.inl rfl⟩
  obtain ⟨hlow, hhigh⟩ := log2_bounds hnum hden
  -- the place that the precision asks for, whether or not the format has it
  obtain ⟨place, hlast, hlt, hle⟩ : ∃ place : ℤ,
      f.lastPlace num den = (if place < f.least then f.least else place) ∧
      (num : ℚ) / den < 2 ^ (place + f.precision) ∧
      2 ^ (place + f.precision - 1) ≤ (num : ℚ) / den := by
    have hfits := scaled_lt_iff num ((Nat.log2 num : ℤ) - Nat.log2 den - f.precision) f.precision
      hden
    rw [sub_add_cancel] at hfits
    by_cases hsmall : (num : ℚ) / den < 2 ^ ((Nat.log2 num : ℤ) - Nat.log2 den)
    · refine ⟨(Nat.log2 num : ℤ) - Nat.log2 den - f.precision, ?_, ?_, ?_⟩
      · simp only [lastPlace, if_neg hnum, Int.ofNat_eq_natCast, if_pos (hfits.mpr hsmall)]
      · rwa [sub_add_cancel]
      · rw [sub_add_cancel]
        exact hlow.le
    · refine ⟨(Nat.log2 num : ℤ) - Nat.log2 den - f.precision + 1, ?_, ?_, ?_⟩
      · simp only [lastPlace, if_neg hnum, Int.ofNat_eq_natCast, if_neg (mt hfits.mp hsmall)]
      · rwa [add_right_comm, sub_add_cancel]
      · rw [add_right_comm, sub_add_cancel, add_sub_cancel_right]
        exact not_lt.mp hsmall
  rw [hlast]
  split_ifs with hleast
  · refine ⟨le_rfl, hlt.trans ?_, Or.inl rfl⟩
    exact zpow_lt_zpow_right₀ one_lt_two (by omega)
  · exact ⟨not_lt.mp hleast, hlt, Or.inr hle⟩

/-! ### Rounding -/

/-- A number is rounded to the nearest multiple of a place, whether or not that is too large for the
format. -/
def Rounds (f : Format) (x y : ℚ) : Prop :=
  ∃ (place : ℤ) (n : ℕ), f.Places x place ∧ IsNearest (x / 2 ^ place) n ∧ y = n * 2 ^ place

/-- The least number that is too large for a format: it lies half way between the greatest value of
the format and what would follow it. -/
def limit (f : Format) : ℚ :=
  (2 ^ f.precision - 1 / 2) * 2 ^ f.greatest

/-- A format whose mantissas have bits and that has an exponent for them. -/
structure Proper (f : Format) : Prop where
  precision_pos : 0 < f.precision
  least_le_greatest : f.least ≤ f.greatest

lemma single_proper : single.Proper := ⟨by decide, by decide⟩

lemma double_proper : double.Proper := ⟨by decide, by decide⟩

section Round

variable {f : Format} {x : ℚ} {place : ℤ} {n : ℕ}

/-- The multiple that is taken has a mantissa of the format, or the first one beyond. -/
lemma Places.mantissa_le (hplace : f.Places x place) (hn : IsNearest (x / 2 ^ place) n) :
    n ≤ Nat.pow 2 f.precision := by
  have hunit : (0 : ℚ) < 2 ^ place := by positivity
  have hunits : x / 2 ^ place < 2 ^ f.precision := by
    rw [div_lt_iff₀ hunit, ← zpow_natCast, ← zpow_add₀ two_ne_zero, add_comm]
    exact hplace.lt
  have hnear := (abs_le.mp hn.abs_sub_le).1
  rw [Int.cast_natCast] at hnear
  have hlt : (n : ℚ) < (Nat.pow 2 f.precision : ℕ) + 1 := by
    rw [Nat.pow_eq, Nat.cast_pow, Nat.cast_ofNat]
    linarith
  have hnat : n < Nat.pow 2 f.precision + 1 := by exact_mod_cast hlt
  exact Nat.lt_succ_iff.mp hnat

/-- A power of two is even, so rounding reaches it from half a unit below. -/
lemma eq_pow_iff_le {u : ℚ} {p : ℕ} (hn : IsNearest u n) (hp : 0 < p) (hle : n ≤ Nat.pow 2 p) :
    n = Nat.pow 2 p ↔ (2 : ℚ) ^ p - 1 / 2 ≤ u := by
  have hcast : ((Nat.pow 2 p : ℕ) : ℚ) = 2 ^ p := by
    rw [Nat.pow_eq, Nat.cast_pow, Nat.cast_ofNat]
  have hnear := abs_le.mp hn.abs_sub_le
  rw [Int.cast_natCast] at hnear
  constructor
  · rintro rfl
    rw [hcast] at hnear
    linarith
  · intro hu
    by_contra hne
    have hsucc : (n : ℚ) + 1 ≤ 2 ^ p := by
      have hnat : n + 1 ≤ Nat.pow 2 p := by omega
      rw [← hcast]
      exact_mod_cast hnat
    have hhalf : u - n = 1 / 2 := by linarith
    have hpred : n + 1 = Nat.pow 2 p := by
      have hrat : (n : ℚ) + 1 = (Nat.pow 2 p : ℕ) := by rw [hcast]; linarith
      exact_mod_cast hrat
    have heven : Even (n : ℤ) :=
      hn.even_of_abs_eq (by rw [Int.cast_natCast, hhalf, abs_of_pos one_half_pos])
    have heven' : Even (n + 1) := by
      rw [hpred]
      exact Nat.even_pow.mpr ⟨even_two, hp.ne'⟩
    exact Nat.not_even_iff_odd.mpr (Int.even_coe_nat n |>.mp heven).add_one heven'

/-- The exponent is too large for the format, after a carry or without one, just if the number has
reached the limit. -/
lemma Places.overflow_iff (hf : f.Proper) (hplace : f.Places x place)
    (hn : IsNearest (x / 2 ^ place) n) :
    f.greatest < (if n = Nat.pow 2 f.precision then place + 1 else place) ↔ f.limit ≤ x := by
  have hunit : (0 : ℚ) < 2 ^ place := by positivity
  have hpow : (1 : ℚ) ≤ 2 ^ f.precision := one_le_pow₀ one_le_two
  have hgreatest : (0 : ℚ) < 2 ^ f.greatest := by positivity
  have hleast := hf.least_le_greatest
  rcases lt_trichotomy place f.greatest with hlt | heq | hgt
  · have hx : x < f.limit := by
      calc x < 2 ^ (place + f.precision) := hplace.lt
        _ ≤ 2 ^ (f.greatest - 1 + f.precision) := by
          exact zpow_le_zpow_right₀ one_le_two (by omega)
        _ = 2 ^ f.precision / 2 * 2 ^ f.greatest := by
          rw [zpow_add₀ two_ne_zero, zpow_sub_one₀ two_ne_zero, zpow_natCast]
          ring
        _ ≤ f.limit := mul_le_mul_of_nonneg_right (by linarith) hgreatest.le
    have hexponent : ¬ f.greatest < if n = Nat.pow 2 f.precision then place + 1 else place := by
      split_ifs <;> omega
    exact iff_of_false hexponent (not_le.mpr hx)
  · -- at the greatest exponent only a carry is too large
    have hcarry : (f.greatest < if n = Nat.pow 2 f.precision then place + 1 else place) ↔
        n = Nat.pow 2 f.precision := by
      split_ifs with h
      · exact iff_of_true (by omega) h
      · exact iff_of_false (by omega) h
    have hunits : f.limit ≤ x ↔ (2 : ℚ) ^ f.precision - 1 / 2 ≤ x / 2 ^ place := by
      rw [limit, ← heq, le_div_iff₀ hunit]
    rw [hcarry, hunits]
    exact eq_pow_iff_le hn hf.precision_pos (hplace.mantissa_le hn)
  · have hx : f.limit < x := by
      calc f.limit < 2 ^ f.precision * 2 ^ f.greatest :=
          mul_lt_mul_of_pos_right (by linarith) hgreatest
        _ = 2 ^ (f.greatest + f.precision) := by
          rw [zpow_add₀ two_ne_zero, zpow_natCast, mul_comm]
        _ ≤ 2 ^ (place + f.precision - 1) := zpow_le_zpow_right₀ one_le_two (by omega)
        _ ≤ x := hplace.le.resolve_left (by omega)
    have hexponent : f.greatest < if n = Nat.pow 2 f.precision then place + 1 else place := by
      split_ifs <;> omega
    exact iff_of_true hexponent hx.le

/-- A value that is not too large is packed without loss. -/
lemma exists_pack (hf : f.Proper) (negative : Bool)
    (h : ¬ f.greatest < if n = Nat.pow 2 f.precision then place + 1 else place) :
    ∃ mantissa exponent, f.pack negative n place = finite negative mantissa exponent ∧
      (mantissa : ℚ) * 2 ^ exponent = n * 2 ^ place := by
  refine ⟨_, _, if_neg h, ?_⟩
  split_ifs with hcarry
  · obtain ⟨p, hp⟩ : ∃ p, f.precision = p + 1 := Nat.exists_eq_succ_of_ne_zero hf.precision_pos.ne'
    have hhalf : n = 2 * (n / 2) := by
      rw [hcarry, hp, Nat.pow_eq, pow_succ]
      omega
    have hcast : (n : ℚ) = 2 * (n / 2 : ℕ) := by exact_mod_cast hhalf
    rw [hcast, zpow_add_one₀ two_ne_zero]
    ring
  · rfl

variable {num den : ℕ}

/-- Rounding takes the nearest multiple of a place. -/
lemma exists_round (f : Format) (negative : Bool) (num : ℕ) (hden : 0 < den) :
    ∃ (place : ℤ) (n : ℕ), f.Places (num / den) place ∧ IsNearest ((num : ℚ) / den / 2 ^ place) n ∧
      f.round negative num den = f.pack negative n place := by
  refine ⟨f.lastPlace num den, _, f.places_lastPlace num hden, ?_, rfl⟩
  have hnear := isNearest_roundDiv (scaled num den (f.lastPlace num den)).1
    (scaled_snd_pos num (f.lastPlace num den) hden)
  rwa [cast_scaled] at hnear

/-- A number that has reached the limit becomes infinite. -/
lemma round_of_limit_le (hf : f.Proper) (negative : Bool) (hden : 0 < den)
    (h : f.limit ≤ num / den) : f.round negative num den = infinite negative := by
  obtain ⟨place, n, hplace, hn, hround⟩ := exists_round f negative num hden
  rw [hround]
  exact if_pos ((hplace.overflow_iff hf hn).mpr h)

/-- A number below the limit becomes a finite value. -/
lemma exists_round_of_lt_limit (hf : f.Proper) (negative : Bool) (hden : 0 < den)
    (h : (num : ℚ) / den < f.limit) :
    ∃ mantissa exponent, f.round negative num den = finite negative mantissa exponent ∧
      f.Rounds (num / den) (mantissa * 2 ^ exponent) := by
  obtain ⟨place, n, hplace, hn, hround⟩ := exists_round f negative num hden
  obtain ⟨mantissa, exponent, hpack, hvalue⟩ :=
    exists_pack hf negative (mt (hplace.overflow_iff hf hn).mp (not_le.mpr h))
  exact ⟨mantissa, exponent, hround.trans hpack, place, n, hplace, hn, hvalue⟩

end Round

/-! ### The error of rounding -/

namespace Rounds

variable {f : Format} {x y : ℚ}

/-- The result is not more than half a place away. -/
lemma exists_abs_sub_le (h : f.Rounds x y) :
    ∃ place : ℤ, f.Places x place ∧ |y - x| ≤ 2 ^ (place - 1) := by
  obtain ⟨place, n, hplace, hn, rfl⟩ := h
  refine ⟨place, hplace, ?_⟩
  have hunit : (0 : ℚ) < 2 ^ place := by positivity
  have hscale : (n : ℚ) * 2 ^ place - x = -((x / 2 ^ place - n) * 2 ^ place) := by
    rw [sub_mul, div_mul_cancel₀ _ hunit.ne']
    ring
  have hnear := hn.abs_sub_le
  rw [Int.cast_natCast] at hnear
  calc |(n : ℚ) * 2 ^ place - x| = |x / 2 ^ place - n| * 2 ^ place := by
        rw [hscale, abs_neg, abs_mul, abs_of_pos hunit]
    _ ≤ 1 / 2 * 2 ^ place := by gcongr
    _ = 2 ^ (place - 1) := by
      rw [zpow_sub_one₀ two_ne_zero]
      ring

/-- Half a place is small compared to a number that does not fit with half the place. -/
lemma half_place_le {place : ℤ} (h : (2 : ℚ) ^ (place + f.precision - 1) ≤ x) :
    (2 : ℚ) ^ (place - 1) ≤ x / 2 ^ f.precision := by
  rw [le_div_iff₀ (by positivity), ← zpow_natCast, ← zpow_add₀ two_ne_zero]
  rwa [show place - 1 + (f.precision : ℤ) = place + f.precision - 1 by ring]

/-- The error is at most half of the last bit, relative to the number, and half of the least place
for numbers that have fewer bits. -/
lemma abs_sub_le (h : f.Rounds x y) (hx : 0 ≤ x) :
    |y - x| ≤ x / 2 ^ f.precision + 2 ^ (f.least - 1) := by
  obtain ⟨place, hplace, hle⟩ := h.exists_abs_sub_le
  have hx' : 0 ≤ x / 2 ^ f.precision := by positivity
  have hleast : (0 : ℚ) < 2 ^ (f.least - 1) := by positivity
  rcases hplace.le with rfl | hfull
  · linarith
  · have hhalf := half_place_le hfull
    linarith

/-- The error relative to a number that has all its bits. -/
lemma abs_sub_le_of_le (h : f.Rounds x y) (hx : 2 ^ (f.least + f.precision - 1) ≤ x) :
    |y - x| ≤ x / 2 ^ f.precision := by
  obtain ⟨place, hplace, hle⟩ := h.exists_abs_sub_le
  rcases hplace.le with rfl | hfull
  · exact hle.trans (half_place_le hx)
  · exact hle.trans (half_place_le hfull)

/-- Zero stays zero. -/
lemma eq_zero (h : f.Rounds 0 y) : y = 0 := by
  obtain ⟨place, n, -, hn, rfl⟩ := h
  rw [zero_div] at hn
  have hzero : (n : ℤ) = 0 := hn.unique (IsNearest.intCast 0)
  have hnat : n = 0 := by exact_mod_cast hzero
  rw [hnat, Nat.cast_zero, zero_mul]

end Rounds

end Format

end Binary

end MaterialGraph
