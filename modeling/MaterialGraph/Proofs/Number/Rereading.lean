import Mathlib
import MaterialGraph.Proofs.Number.Fixed

/-!
# Reading a decimal text again

Between eight and sixteen the values of the 32-bit format lie a little closer together than
millionths do, and from sixteen on they lie further apart.  So a number below sixteen is rounded to
a value that is nearer to the same multiple of a millionth than to any other one
(`millionths_of_lt_sixteen`), and a number from sixteen on that is near to a value of the format is
rounded to that value (`Places.eq_of_abs_lt`).  Either way, a number that is near to what the text
of a value stands for is rounded to a value with the same text (`fixedText_convert_of_near`), and it
does not matter if it was itself rounded before.
-/

namespace MaterialGraph

/-! ### Relative errors -/

/-- The first number is the second one up to a factor that differs from one by at most `δ`. -/
def Near (δ a b : ℚ) : Prop :=
  ∃ t, |t| ≤ δ ∧ a = b * (1 + t)

namespace Near

variable {a b c d δ ε : ℚ}

/-- The difference is at most a part of the number. -/
lemma abs_sub_le (h : Near δ a b) (hb : 0 ≤ b) : |a - b| ≤ b * δ := by
  obtain ⟨t, ht, rfl⟩ := h
  have hdifference : b * (1 + t) - b = b * t := by ring
  rw [hdifference, abs_mul, abs_of_nonneg hb]
  gcongr

/-- A bound on the distance, in units of the second number. -/
lemma of_abs_sub_le (hb : 0 < b) (h : |a - b| ≤ b * δ) : Near δ a b := by
  refine ⟨(a - b) / b, ?_, ?_⟩
  · rw [abs_div, abs_of_pos hb, div_le_iff₀' hb]
    exact h
  · field_simp
    ring

lemma refl (hδ : 0 ≤ δ) (a : ℚ) : Near δ a a :=
  ⟨0, by simpa using hδ, by ring⟩

/-- A number near a positive one is positive. -/
lemma pos (h : Near δ a b) (hδ : δ < 1) (hb : 0 < b) : 0 < a := by
  obtain ⟨t, ht, rfl⟩ := h
  have hfactor : 0 < 1 + t := by linarith [(abs_le.mp ht).1]
  positivity

lemma mono (h : Near δ a b) (hle : δ ≤ ε) : Near ε a b := by
  obtain ⟨t, ht, rfl⟩ := h
  exact ⟨t, ht.trans hle, rfl⟩

/-- The error of a product of two factors. -/
lemma abs_add_le {s t : ℚ} (ht : |t| ≤ δ) (hs : |s| ≤ ε) : |t + s + t * s| ≤ δ + ε + δ * ε := by
  have hδ : 0 ≤ δ := (abs_nonneg t).trans ht
  calc |t + s + t * s| ≤ |t| + |s| + |t * s| := abs_add_three _ _ _
    _ ≤ δ + ε + δ * ε := by
      rw [abs_mul]
      gcongr

/-- Errors add up, together with their product. -/
lemma trans (h : Near δ a b) (h' : Near ε b c) : Near (δ + ε + δ * ε) a c := by
  obtain ⟨t, ht, rfl⟩ := h
  obtain ⟨s, hs, rfl⟩ := h'
  exact ⟨t + s + t * s, abs_add_le ht hs, by ring⟩

/-- The errors of two factors add up in their product, as in a chain. -/
lemma mul (h : Near δ a b) (h' : Near ε c d) : Near (δ + ε + δ * ε) (a * c) (b * d) := by
  obtain ⟨t, ht, rfl⟩ := h
  obtain ⟨s, hs, rfl⟩ := h'
  exact ⟨t + s + t * s, abs_add_le ht hs, by ring⟩

/-- In a quotient both errors count at most twice, unless the divisor is far off. -/
lemma div (h : Near δ a b) (h' : Near ε c d) (hε : ε ≤ 1 / 2) :
    Near (2 * (δ + ε)) (a / c) (b / d) := by
  obtain ⟨t, ht, rfl⟩ := h
  obtain ⟨s, hs, rfl⟩ := h'
  have hs' := abs_le.mp (hs.trans hε)
  have hfactor : 1 / 2 ≤ 1 + s := by linarith
  have hpos : 0 < 1 + s := by linarith
  refine ⟨(t - s) / (1 + s), ?_, ?_⟩
  · have hsum : |t - s| ≤ δ + ε := (abs_sub t s).trans (add_le_add ht hs)
    rw [abs_div, abs_of_pos hpos, div_le_iff₀ hpos]
    nlinarith [abs_nonneg (t - s)]
  · rw [mul_div_mul_comm]
    congr 1
    field_simp
    ring

end Near

namespace Binary

/-! ### The values of a format -/

namespace Format

/-- A finite value of a format. -/
inductive Holds (f : Format) : Binary → Prop where
  | finite (negative : Bool) {mantissa : ℕ} {exponent : ℤ} (hmantissa : mantissa < 2 ^ f.precision)
      (hleast : f.least ≤ exponent) (hgreatest : exponent ≤ f.greatest) :
      f.Holds (.finite negative mantissa exponent)

/-- Whatever is finite with a 32-bit pattern. -/
lemma holds_ofBits {bits : ℕ} {v : ℚ} (h : (ofBits bits).value? = some v) :
    single.Holds (ofBits bits) := by
  have hfraction : bits % Nat.pow 2 23 < Nat.pow 2 23 := Nat.mod_lt _ (by decide)
  have hfield : bits / Nat.pow 2 23 % Nat.pow 2 8 < 256 := Nat.mod_lt _ (by decide)
  have hprecision : 2 ^ single.precision = 2 * Nat.pow 2 23 := rfl
  unfold ofBits at h ⊢
  dsimp only at h ⊢
  split_ifs at h ⊢ with hlast hzero hleast
  · cases h
  · cases h
  · exact .finite _ (by omega) (by decide) (by decide)
  · rw [Int.ofNat_eq_natCast]
    refine .finite _ (by omega) ?_ ?_ <;> simp only [single] <;> omega

section Gap

variable {f : Format} {mantissa : ℕ} {exponent : ℤ}

/-- A value that is less than a power of two is so by a gap that depends on the precision. -/
lemma le_pow_sub_of_lt_pow {p : ℕ} {k : ℤ} (hmantissa : mantissa < 2 ^ p)
    (hlt : (mantissa : ℚ) * 2 ^ exponent < 2 ^ k) :
    (mantissa : ℚ) * 2 ^ exponent ≤ 2 ^ k - 2 ^ (k - p) := by
  rcases le_or_gt exponent (k - p) with hle | hgt
  · have hcast : (mantissa : ℚ) ≤ 2 ^ p - 1 := by
      rw [le_sub_iff_add_le]
      exact_mod_cast hmantissa
    have hp : (0 : ℚ) ≤ 2 ^ p - 1 := hcast.trans' (Nat.cast_nonneg mantissa)
    calc (mantissa : ℚ) * 2 ^ exponent ≤ (2 ^ p - 1) * 2 ^ (k - p) := by
          gcongr
          exact one_le_two
      _ = 2 ^ k - 2 ^ (k - p) := by
        rw [sub_mul, one_mul, ← zpow_natCast, ← zpow_add₀ two_ne_zero, add_sub_cancel]
  rcases le_or_gt exponent k with hle | hgt'
  · -- the power is a multiple of the unit of the value, so a whole unit is missing
    obtain ⟨j, hj⟩ := Int.eq_ofNat_of_zero_le (sub_nonneg.mpr hle)
    obtain rfl : k = exponent + j := by omega
    have hunit : (0 : ℚ) < 2 ^ exponent := by positivity
    rw [zpow_add₀ two_ne_zero, mul_comm, mul_lt_mul_iff_right₀ hunit, zpow_natCast] at hlt
    have hcast : (mantissa : ℚ) + 1 ≤ 2 ^ j := by exact_mod_cast hlt
    have hgap : (2 : ℚ) ^ (exponent + j - p) ≤ 2 ^ exponent :=
      zpow_le_zpow_right₀ one_le_two hgt.le
    rw [zpow_add₀ two_ne_zero, zpow_natCast]
    nlinarith
  · have hlarge : (2 : ℚ) ^ k < 2 ^ exponent := zpow_lt_zpow_right₀ one_lt_two hgt'
    have hzero : mantissa = 0 := by
      by_contra hne
      have hone : (1 : ℚ) ≤ mantissa := by exact_mod_cast Nat.one_le_iff_ne_zero.mpr hne
      nlinarith [zpow_pos (two_pos : (0 : ℚ) < 2) exponent]
    have hgap : (2 : ℚ) ^ (k - p) ≤ 2 ^ k := zpow_le_zpow_right₀ one_le_two (by omega)
    rw [hzero, Nat.cast_zero, zero_mul]
    linarith

/-- A value of full precision is a multiple of every place that would do for it. -/
lemma place_le_of_pow_le {p : ℕ} {place : ℤ} (hmantissa : mantissa < 2 ^ p)
    (hle : (2 : ℚ) ^ (place + p - 1) ≤ mantissa * 2 ^ exponent) : place ≤ exponent := by
  have hlt : (mantissa : ℚ) * 2 ^ exponent < 2 ^ (exponent + p) := by
    rw [zpow_add₀ two_ne_zero, zpow_natCast, mul_comm]
    have hcast : (mantissa : ℚ) < 2 ^ p := by exact_mod_cast hmantissa
    gcongr
  have hpow := (zpow_lt_zpow_iff_right₀ one_lt_two).mp (hle.trans_lt hlt)
  omega

variable {x : ℚ} {place : ℤ} {n : ℕ}

/-- A number that is less than half a place away from a value of the format is rounded to that
value. -/
lemma Places.eq_of_abs_lt (hfull : (2 : ℚ) ^ (place + f.precision - 1) ≤ x)
    (hn : IsNearest (x / 2 ^ place) n) (hmantissa : mantissa < 2 ^ f.precision)
    (hnear : |x - mantissa * 2 ^ exponent| < 2 ^ (place - 1)) :
    (n : ℚ) * 2 ^ place = mantissa * 2 ^ exponent := by
  have hunit : (0 : ℚ) < 2 ^ place := by positivity
  have hle : (2 : ℚ) ^ (place + f.precision - 1) ≤ mantissa * 2 ^ exponent := by
    by_contra hlt
    have hgap := le_pow_sub_of_lt_pow hmantissa (not_le.mp hlt)
    rw [show place + f.precision - 1 - (f.precision : ℤ) = place - 1 by ring] at hgap
    have hdistance := (abs_lt.mp hnear).2
    linarith
  obtain ⟨j, hj⟩ := Int.eq_ofNat_of_zero_le (sub_nonneg.mpr (place_le_of_pow_le hmantissa hle))
  have hmultiple : (mantissa : ℚ) * 2 ^ exponent = (mantissa * 2 ^ j : ℕ) * 2 ^ place := by
    rw [show exponent = place + j by omega, zpow_add₀ two_ne_zero, zpow_natCast]
    push_cast
    ring
  have hnearest : IsNearest (x / 2 ^ place) (mantissa * 2 ^ j : ℕ) := by
    left
    rw [Int.cast_natCast, ← mul_lt_mul_iff_left₀ hunit]
    calc |x / 2 ^ place - (mantissa * 2 ^ j : ℕ)| * 2 ^ place
        = |x - mantissa * 2 ^ exponent| := by
          rw [hmultiple, ← abs_of_pos hunit, ← abs_mul, abs_of_pos hunit, sub_mul,
            div_mul_cancel₀ _ hunit.ne']
      _ < 1 / 2 * 2 ^ place := by
        rw [zpow_sub_one₀ two_ne_zero] at hnear
        linarith
  have hnat : n = mantissa * 2 ^ j := by exact_mod_cast hn.unique hnearest
  rw [hnat, hmultiple]

end Gap

end Format

/-! ### Texts of rounded numbers -/

section Rereading

variable {mantissa : ℕ} {exponent : ℤ} {x : ℚ}

/-- What a text stands for is less than a millionth away from the value it was written for. -/
lemma abs_sub_millionths_le (mantissa : ℕ) (exponent : ℤ) :
    |(millionths mantissa exponent : ℚ) / 10 ^ 6 - mantissa * 2 ^ exponent| ≤ 1 / 2 / 10 ^ 6 := by
  have hnear := (isNearest_millionths mantissa exponent).abs_sub_le
  rw [Int.cast_natCast, abs_le] at hnear
  rw [abs_le]
  constructor <;> linarith

/-- A value that is less than half a millionth away from a multiple of a millionth has that multiple
as its text. -/
lemma millionths_eq_of_abs_lt {units : ℕ}
    (h : |(mantissa : ℚ) * 2 ^ exponent - units / 10 ^ 6| < 1 / 2 / 10 ^ 6) :
    millionths mantissa exponent = units := by
  have hnearest : IsNearest (mantissa * 2 ^ exponent * 10 ^ 6) (units : ℤ) := by
    left
    rw [Int.cast_natCast, abs_lt]
    rw [abs_lt] at h
    constructor <;> linarith
  exact_mod_cast (isNearest_millionths mantissa exponent).unique hnearest

/-- A number below sixteen is rounded to a value less than half a millionth away. -/
lemma millionths_of_lt_sixteen {units : ℕ} (hnear : Near (1 / 2 ^ 50) x (units / 10 ^ 6))
    (hx : x < 16) (hround : single.Rounds x (mantissa * 2 ^ exponent)) :
    millionths mantissa exponent = units := by
  have hsize : (0 : ℚ) ≤ units / 10 ^ 6 := by positivity
  have hdistance := abs_le.mp (hnear.abs_sub_le hsize)
  obtain ⟨place, hplace, herror⟩ := hround.exists_abs_sub_le
  have hle : place ≤ -20 := by
    rcases hplace.le with hleast | hfull
    · rw [hleast]
      decide
    · have hlt : (2 : ℚ) ^ (place + single.precision - 1) < 2 ^ (4 : ℤ) := by
        refine hfull.trans_lt (hx.trans_eq ?_)
        norm_num
      have hpow := (zpow_lt_zpow_iff_right₀ one_lt_two).mp hlt
      have hprecision : (single.precision : ℤ) = 24 := rfl
      omega
  have hhalf : (2 : ℚ) ^ (place - 1) ≤ 1 / 2 ^ 21 := by
    refine (zpow_le_zpow_right₀ one_le_two (by omega : place - 1 ≤ -21)).trans_eq ?_
    norm_num
  have herror' := abs_le.mp (herror.trans hhalf)
  refine millionths_eq_of_abs_lt ?_
  generalize (mantissa : ℚ) * 2 ^ exponent = v at herror' ⊢
  generalize (units : ℚ) / 10 ^ 6 = u at hsize hdistance ⊢
  rw [abs_lt]
  constructor <;> linarith

/-- From sixteen on, a number that is near to what the text of a value stands for is less than half
a place away from the value. -/
lemma abs_sub_lt_half_place {place : ℤ} (hplace : single.Places x place) (hx : 16 ≤ x)
    (hnear : Near (1 / 2 ^ 50) x (millionths mantissa exponent / 10 ^ 6)) :
    |x - mantissa * 2 ^ exponent| < 2 ^ (place - 1) := by
  have hsize : (0 : ℚ) ≤ millionths mantissa exponent / 10 ^ 6 := by positivity
  have hdistance := abs_le.mp (hnear.abs_sub_le hsize)
  have htext := abs_le.mp (abs_sub_millionths_le mantissa exponent)
  have hprecision : (single.precision : ℤ) = 24 := rfl
  have hlt := hplace.lt
  rw [hprecision] at hlt
  have hle : -19 ≤ place := by
    have hpow : (2 : ℚ) ^ (4 : ℤ) < 2 ^ (place + 24) := by
      refine lt_of_le_of_lt ?_ hlt
      refine le_trans ?_ hx
      norm_num
    have hexponent := (zpow_lt_zpow_iff_right₀ one_lt_two).mp hpow
    omega
  have hhalf : 1 / 2 ^ 20 ≤ (2 : ℚ) ^ (place - 1) := by
    refine le_of_eq_of_le ?_ (zpow_le_zpow_right₀ one_le_two (by omega : -20 ≤ place - 1))
    norm_num
  have hunits : (2 : ℚ) ^ (place + 24) = 2 ^ (place - 1) * 2 ^ 25 := by
    rw [← zpow_natCast (2 : ℚ) 25, ← zpow_add₀ two_ne_zero]
    congr 1
    push_cast
    ring
  rw [hunits] at hlt
  generalize (2 : ℚ) ^ (place - 1) = half at hlt hhalf ⊢
  generalize (mantissa : ℚ) * 2 ^ exponent = v at htext ⊢
  generalize (millionths mantissa exponent : ℚ) / 10 ^ 6 = u at hsize hdistance htext
  rw [abs_lt]
  constructor <;> linarith

/-- From sixteen on no number has the least place as its last one. -/
lemma pow_le_of_sixteen_le {place : ℤ} (hplace : single.Places x place) (hx : 16 ≤ x) :
    (2 : ℚ) ^ (place + single.precision - 1) ≤ x := by
  refine hplace.le.resolve_left ?_
  rintro rfl
  have hlt := hplace.lt.trans_le' hx
  norm_num [single] at hlt

/-- A number that is near to what the text of a value stands for is not too large for the format. -/
lemma lt_limit_of_near {num den : ℕ} (hden : 0 < den) (hmantissa : mantissa < 2 ^ single.precision)
    (hgreatest : exponent ≤ single.greatest)
    (hnear : Near (1 / 2 ^ 50) (num / den) (millionths mantissa exponent / 10 ^ 6)) :
    (num : ℚ) / den < single.limit := by
  rcases lt_or_ge ((num : ℚ) / den) 16 with hx | hx
  · refine hx.trans ?_
    norm_num [Format.limit, single]
  have hplace := single.places_lastPlace num hden
  have hdistance := (abs_lt.mp (abs_sub_lt_half_place hplace hx hnear)).2
  have hfull := pow_le_of_sixteen_le hplace hx
  generalize single.lastPlace num den = place at hplace hdistance hfull
  have hvalue : (mantissa : ℚ) * 2 ^ exponent ≤ (2 ^ 24 - 1) * 2 ^ (104 : ℤ) := by
    have hcast : (mantissa : ℚ) ≤ 2 ^ 24 - 1 := by
      rw [le_sub_iff_add_le]
      exact_mod_cast hmantissa
    have hpow : (2 : ℚ) ^ exponent ≤ 2 ^ (104 : ℤ) := zpow_le_zpow_right₀ one_le_two hgreatest
    gcongr
  have hunits : (2 : ℚ) ^ (place + single.precision - 1) = 2 ^ (place - 1) * 2 ^ 24 := by
    rw [← zpow_natCast (2 : ℚ) 24, ← zpow_add₀ two_ne_zero]
    congr 1
    simp only [single]
    push_cast
    ring
  -- the number has no more places than the greatest value of the format
  have hle : (2 : ℚ) ^ (place - 1) ≤ 2 ^ (103 : ℤ) := by
    have hlt : (2 : ℚ) ^ (place - 1) < 2 ^ (104 : ℤ) := by linarith
    have hexponent := (zpow_lt_zpow_iff_right₀ one_lt_two).mp hlt
    exact zpow_le_zpow_right₀ one_le_two (by omega)
  have hlimit : single.limit = (2 ^ 24 - 1) * 2 ^ (104 : ℤ) + 2 ^ (103 : ℤ) := by
    norm_num [Format.limit, single]
  rw [hlimit]
  linarith

/-- A number that is near to what the text of a value stands for is rounded to a value with the same
number of millionths. -/
lemma exists_round_near {num den : ℕ} (hden : 0 < den) (negative : Bool)
    (hmantissa : mantissa < 2 ^ single.precision) (hgreatest : exponent ≤ single.greatest)
    (hnear : Near (1 / 2 ^ 50) (num / den) (millionths mantissa exponent / 10 ^ 6)) :
    ∃ m e, single.round negative num den = finite negative m e ∧
      millionths m e = millionths mantissa exponent := by
  have hlimit := lt_limit_of_near hden hmantissa hgreatest hnear
  obtain ⟨m, e, hfinite, hround⟩ :=
    Format.exists_round_of_lt_limit Format.single_proper negative hden hlimit
  refine ⟨m, e, hfinite, ?_⟩
  rcases lt_or_ge ((num : ℚ) / den) 16 with hx | hx
  · exact millionths_of_lt_sixteen hnear hx hround
  · obtain ⟨place, n, hplace, hn, hvalue⟩ := hround
    have hsame := Format.Places.eq_of_abs_lt (pow_le_of_sixteen_le hplace hx) hn hmantissa
      (abs_sub_lt_half_place hplace hx hnear)
    have hnearest := isNearest_millionths m e
    rw [hvalue, hsame] at hnearest
    exact_mod_cast hnearest.unique (isNearest_millionths mantissa exponent)

/-- Whatever is near to what the text of a value of the 32-bit format stands for has the same text,
once it is rounded to that format. -/
lemma fixedText_convert_of_near {negative negative' : Bool} {m : ℕ} {e : ℤ}
    (hmantissa : mantissa < 2 ^ single.precision) (hgreatest : exponent ≤ single.greatest)
    (hsign : millionths mantissa exponent ≠ 0 → negative' = negative)
    (hnear : Near (1 / 2 ^ 50) (m * 2 ^ e) (millionths mantissa exponent / 10 ^ 6)) :
    (convert single (finite negative' m e)).fixedText =
      (finite negative mantissa exponent).fixedText := by
  rw [← cast_quotient] at hnear
  obtain ⟨m', e', hround, hunits⟩ :=
    exists_round_near (quotient_snd_pos m e) negative' hmantissa hgreatest hnear
  have hconvert : convert single (finite negative' m e) = finite negative' m' e' := hround
  rw [hconvert]
  calc (finite negative' m' e').fixedText
      = Decimal.text negative' (millionths mantissa exponent) := by rw [← hunits]; rfl
    _ = Decimal.text negative (millionths mantissa exponent) := Decimal.text_congr hsign

/-- A number far from both ends of the 64-bit format is rounded to that format without much loss. -/
lemma exists_double_near {num den : ℕ} (hden : 0 < den) (negative : Bool)
    (hlow : num = 0 ∨ 2 ^ (-500 : ℤ) ≤ (num : ℚ) / den)
    (hhigh : (num : ℚ) / den ≤ 2 ^ (500 : ℤ)) :
    ∃ m e, double.round negative num den = finite negative m e ∧
      Near (1 / 2 ^ 53) (m * 2 ^ e) (num / den) := by
  have hlimit : (num : ℚ) / den < double.limit := by
    calc (num : ℚ) / den ≤ 2 ^ (500 : ℤ) := hhigh
      _ < 2 ^ double.greatest := zpow_lt_zpow_right₀ one_lt_two (by decide)
      _ ≤ double.limit := le_mul_of_one_le_left (by positivity) (by norm_num [double])
  obtain ⟨m, e, hfinite, hround⟩ :=
    Format.exists_round_of_lt_limit Format.double_proper negative hden hlimit
  refine ⟨m, e, hfinite, ?_⟩
  rcases hlow with rfl | hlow
  · rw [Nat.cast_zero, zero_div] at hround ⊢
    rw [hround.eq_zero]
    exact Near.refl (by positivity) 0
  · have hpos : 0 < (num : ℚ) / den := lt_of_lt_of_le (by positivity) hlow
    have hbits : (2 : ℚ) ^ (double.least + double.precision - 1) ≤ num / den :=
      (zpow_le_zpow_right₀ one_le_two (by decide)).trans hlow
    refine Near.of_abs_sub_le hpos ((hround.abs_sub_le_of_le hbits).trans_eq ?_)
    rw [mul_one_div]
    rfl

/-- Rounding to the 64-bit format adds little to an error that is already there. -/
lemma exists_double_of_near {num den : ℕ} {t δ : ℚ} (hden : 0 < den) (negative : Bool)
    (hnear : Near δ (num / den) t) (hδ : δ ≤ 1 / 2) (hlow : t = 0 ∨ 2 ^ (-400 : ℤ) ≤ t)
    (hhigh : t ≤ 2 ^ (400 : ℤ)) :
    ∃ m e, double.round negative num den = finite negative m e ∧
      Near (1 / 2 ^ 53 + δ + 1 / 2 ^ 53 * δ) (m * 2 ^ e) t := by
  have ht : 0 ≤ t := by
    rcases hlow with rfl | hlow
    · exact le_rfl
    · exact hlow.trans' (by positivity)
  have herror := abs_le.mp ((hnear.abs_sub_le ht).trans (mul_le_mul_of_nonneg_left hδ ht))
  have hlow' : num = 0 ∨ 2 ^ (-500 : ℤ) ≤ (num : ℚ) / den := by
    rcases hlow with rfl | hlow
    · left
      obtain ⟨_, _, hzero⟩ := hnear
      rw [zero_mul, div_eq_zero_iff, Nat.cast_eq_zero, Nat.cast_eq_zero] at hzero
      exact hzero.resolve_right hden.ne'
    · right
      calc (2 : ℚ) ^ (-500 : ℤ) ≤ 2 ^ (-1 + -400 : ℤ) := zpow_le_zpow_right₀ one_le_two (by decide)
        _ = 1 / 2 * 2 ^ (-400 : ℤ) := by rw [zpow_add₀ two_ne_zero, zpow_neg_one, one_div]
        _ ≤ 1 / 2 * t := mul_le_mul_of_nonneg_left hlow (by norm_num)
        _ ≤ num / den := by linarith
  have hhigh' : (num : ℚ) / den ≤ 2 ^ (500 : ℤ) := by
    calc (num : ℚ) / den ≤ 2 * t := by linarith
      _ ≤ 2 * 2 ^ (400 : ℤ) := mul_le_mul_of_nonneg_left hhigh two_pos.le
      _ = 2 ^ (1 + 400 : ℤ) := (zpow_one_add₀ two_ne_zero 400).symm
      _ ≤ 2 ^ (500 : ℤ) := zpow_le_zpow_right₀ one_le_two (by decide)
  obtain ⟨m, e, hround, hdouble⟩ := exists_double_near hden negative hlow' hhigh'
  exact ⟨m, e, hround, hdouble.trans hnear⟩

/-- What a text stands for is far from both ends of the 64-bit format. -/
lemma millionths_bounds (hmantissa : mantissa < 2 ^ single.precision)
    (hgreatest : exponent ≤ single.greatest) :
    (millionths mantissa exponent = 0 ∨
        2 ^ (-20 : ℤ) ≤ (millionths mantissa exponent : ℚ) / 10 ^ 6) ∧
      (millionths mantissa exponent : ℚ) / 10 ^ 6 < 2 ^ (128 : ℤ) + 1 := by
  constructor
  · by_cases hzero : millionths mantissa exponent = 0
    · exact Or.inl hzero
    · right
      have hone : (1 : ℚ) ≤ millionths mantissa exponent := by
        exact_mod_cast Nat.one_le_iff_ne_zero.mpr hzero
      rw [le_div_iff₀ (by norm_num)]
      refine le_trans ?_ hone
      norm_num
  · have hvalue : (mantissa : ℚ) * 2 ^ exponent ≤ 2 ^ 24 * 2 ^ (104 : ℤ) := by
      have hcast : (mantissa : ℚ) ≤ 2 ^ 24 := by exact_mod_cast hmantissa.le
      have hpow : (2 : ℚ) ^ exponent ≤ 2 ^ (104 : ℤ) := zpow_le_zpow_right₀ one_le_two hgreatest
      gcongr
    have htext := (abs_le.mp (abs_sub_millionths_le mantissa exponent)).2
    have hproduct : (2 : ℚ) ^ 24 * 2 ^ (104 : ℤ) = 2 ^ (128 : ℤ) := by norm_num
    linarith

/-- The value of a format nearest to a number. -/
def Format.nearest (f : Format) (q : ℚ) : Binary :=
  f.round (decide (q < 0)) q.num.natAbs q.den

lemma abs_signed (negative : Bool) {size : ℚ} (hsize : 0 ≤ size) :
    |signed negative size| = size := by
  cases negative with
  | false => exact abs_of_nonneg hsize
  | true => exact (abs_neg size).trans (abs_of_nonneg hsize)

/-- A sign in front of a size that is not zero makes a number negative. -/
lemma signed_lt_zero_iff (negative : Bool) {size : ℚ} (hsize : 0 < size) :
    signed negative size < 0 ↔ negative = true := by
  cases negative with
  | false => exact iff_of_false (not_lt.mpr hsize.le) Bool.false_ne_true
  | true => exact iff_of_true (neg_lt_zero.mpr hsize) rfl

/-- A text that is read as the nearest value of the 64-bit format is written again in the same
way. -/
lemma fixedText_convert_nearest (negative : Bool) (hmantissa : mantissa < 2 ^ single.precision)
    (hgreatest : exponent ≤ single.greatest) :
    (convert single (double.nearest
        (signed negative (millionths mantissa exponent / 10 ^ 6)))).fixedText =
      (finite negative mantissa exponent).fixedText := by
  obtain ⟨hlow, hhigh⟩ := millionths_bounds hmantissa hgreatest
  have hsize : (0 : ℚ) ≤ millionths mantissa exponent / 10 ^ 6 := by positivity
  have habs := abs_signed negative hsize
  have hsign : 0 < (millionths mantissa exponent : ℚ) / 10 ^ 6 →
      (signed negative (millionths mantissa exponent / 10 ^ 6) < 0 ↔ negative = true) :=
    signed_lt_zero_iff negative
  generalize signed negative (millionths mantissa exponent / 10 ^ 6) = q at habs hsign ⊢
  have hquotient : (q.num.natAbs : ℚ) / q.den = millionths mantissa exponent / 10 ^ 6 := by
    rw [← habs, ← Rat.num_div_den q, abs_div, Nat.cast_natAbs, Int.cast_abs, Nat.abs_cast,
      Rat.num_div_den]
  have hlow' : q.num.natAbs = 0 ∨ 2 ^ (-500 : ℤ) ≤ (q.num.natAbs : ℚ) / q.den := by
    rcases hlow with hzero | hlow
    · left
      rw [hzero, Nat.cast_zero, zero_div] at habs
      rw [abs_eq_zero.mp habs]
      rfl
    · right
      rw [hquotient]
      exact (zpow_le_zpow_right₀ one_le_two (by decide)).trans hlow
  have hhigh' : (q.num.natAbs : ℚ) / q.den ≤ 2 ^ (500 : ℤ) := by
    rw [hquotient]
    calc (millionths mantissa exponent : ℚ) / 10 ^ 6 ≤ 2 ^ (128 : ℤ) + 1 := hhigh.le
      _ ≤ 2 ^ (129 : ℤ) := by norm_num
      _ ≤ 2 ^ (500 : ℤ) := zpow_le_zpow_right₀ one_le_two (by decide)
  obtain ⟨m, e, hround, hnear⟩ := exists_double_near q.den_pos (decide (q < 0)) hlow' hhigh'
  have hnearest : double.nearest q = finite (decide (q < 0)) m e := hround
  rw [hnearest]
  rw [hquotient] at hnear
  refine fixedText_convert_of_near hmantissa hgreatest ?_ (hnear.mono (by norm_num))
  intro hne
  have hpos : (0 : ℚ) < millionths mantissa exponent / 10 ^ 6 := by
    have hnat : 0 < millionths mantissa exponent := Nat.pos_of_ne_zero hne
    positivity
  rw [Bool.eq_iff_iff, decide_eq_true_iff]
  exact hsign hpos

end Rereading

end Binary

end MaterialGraph
