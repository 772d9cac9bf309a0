import Mathlib
import MaterialGraph.Proofs.Json.Reading
import MaterialGraph.Proofs.Number.Rereading

/-!
# Reading decimal texts as numbers

A number with a point is not read as the nearest floating-point value: its leading digits make a
whole number (`Numeral.absorbed_absorb`), the others are dropped (`Numeral.exists_significand`), and
three roundings follow (`Numeral.exists_scale`).  All this together changes the number by less than
one part in `2 ^ 50` (`Numeral.exists_value_near`).  A decimal text without superfluous characters
is a number by the grammar of JSON (`Tree.read_spelling`), so it is read in this way.
-/

namespace MaterialGraph

namespace Json

namespace Numeral

/-! ### Digits -/

/-- The value of a digit. -/
lemma digitValue_le {c : Char} (h : c.isDigit = true) : digitValue c ≤ 9 := by
  have hle : c.toNat ≤ 57 := by
    simp only [Char.isDigit, Bool.and_eq_true, decide_eq_true_eq] at h
    exact h.2
  have hzero : '0'.toNat = 48 := rfl
  unfold digitValue
  omega

/-- So many digits stand for a number below that power of ten. -/
lemma ofDigitChars_lt {cs : List Char} (h : ∀ c ∈ cs, c.isDigit = true) :
    Nat.ofDigitChars 10 cs 0 < 10 ^ cs.length := by
  induction cs with
  | nil => exact Nat.one_pos
  | cons c cs ih =>
    obtain ⟨hc, hcs⟩ := List.forall_mem_cons.mp h
    have hdigit : c.toNat - '0'.toNat ≤ 9 := digitValue_le hc
    have hrest := ih hcs
    rw [Nat.ofDigitChars_cons, Nat.ofDigitChars_eq_ofDigitChars_zero, List.length_cons,
      Nat.pow_succ, Nat.mul_zero, Nat.zero_add]
    nlinarith

/-- Digits have been appended to a number: the first ones, up to the first one that would make it
pass the limit. -/
structure Absorbed (limit n : ℕ) (cs : List Char) (r k : ℕ) : Prop where
  le_length : k ≤ cs.length
  value : r = Nat.ofDigitChars 10 (cs.take k) n
  le_limit : n ≤ limit → r ≤ limit
  full : k < cs.length → limit ≤ 10 * r + 8

/-- Digits are absorbed one after the other until the next one would take the number over the limit.
-/
lemma absorbed_absorb (limit n : ℕ) {cs : List Char} (h : ∀ c ∈ cs, c.isDigit = true) :
    Absorbed limit n cs (absorb limit n cs).1 (absorb limit n cs).2 := by
  induction cs generalizing n with
  | nil => exact ⟨le_rfl, rfl, id, fun hlt => absurd hlt (lt_irrefl 0)⟩
  | cons c cs ih =>
    obtain ⟨hc, hcs⟩ := List.forall_mem_cons.mp h
    unfold absorb
    dsimp only
    split_ifs with hnext
    · have hrest := ih (10 * n + digitValue c) hcs
      refine ⟨Nat.succ_le_succ hrest.le_length, ?_, fun _ => hrest.le_limit hnext, ?_⟩
      · rw [List.take_succ_cons, Nat.ofDigitChars_cons]
        exact hrest.value
      · intro hlt
        exact hrest.full (Nat.lt_of_succ_lt_succ hlt)
    · refine ⟨Nat.zero_le _, rfl, id, fun _ => ?_⟩
      have hdigit := digitValue_le hc
      omega

/-- The digits that were appended and those that were not. -/
lemma Absorbed.exists_split {limit n r k : ℕ} {cs : List Char} (h : Absorbed limit n cs r k)
    (hcs : ∀ c ∈ cs, c.isDigit = true) :
    ∃ taken dropped, r = 10 ^ k * n + taken ∧ taken < 10 ^ k ∧
      Nat.ofDigitChars 10 cs 0 = 10 ^ (cs.length - k) * taken + dropped ∧
      dropped < 10 ^ (cs.length - k) := by
  have htake : (cs.take k).length = k := List.length_take_of_le h.le_length
  have hdrop : (cs.drop k).length = cs.length - k := List.length_drop
  refine ⟨Nat.ofDigitChars 10 (cs.take k) 0, Nat.ofDigitChars 10 (cs.drop k) 0, ?_, ?_, ?_, ?_⟩
  · rw [h.value, Nat.ofDigitChars_eq_ofDigitChars_zero, htake]
  · have hlt := ofDigitChars_lt fun c (hc : c ∈ cs.take k) => hcs c (List.mem_of_mem_take hc)
    rwa [htake] at hlt
  · conv_lhs => rw [← List.take_append_drop k cs]
    rw [Nat.ofDigitChars_append, Nat.ofDigitChars_eq_ofDigitChars_zero, hdrop]
  · have hlt := ofDigitChars_lt fun c (hc : c ∈ cs.drop k) => hcs c (List.mem_of_mem_drop hc)
    rwa [hdrop] at hlt

/-! ### The significand -/

section Significand

variable {whole fraction : List Char}

/-- A limit that digits reach only if there are many of them. -/
lemma pow_le_of_wordLimit_le {r : ℕ} (h : wordLimit ≤ 10 * r + 8) : 2 ^ 60 ≤ r := by
  have hlimit : wordLimit = 2 ^ 64 - 1 := rfl
  rw [hlimit] at h
  omega

/-- The digits behind the point, as far as they were taken, and the rest of them. -/
lemma Absorbed.exists_rest {limit n s j : ℕ} (h : Absorbed limit n fraction s j)
    (hfraction : ∀ c ∈ fraction, c.isDigit = true) :
    ∃ A B : ℚ, (s : ℚ) = 10 ^ j * (n + A) ∧ 0 ≤ A ∧ A < 1 ∧ 0 ≤ B ∧ B < 1 / 10 ^ j ∧
      (j = fraction.length → B = 0) ∧
      (Nat.ofDigitChars 10 fraction 0 : ℚ) / 10 ^ fraction.length = A + B := by
  obtain ⟨a, b, hs, ha, hsplit, hb⟩ := h.exists_split hfraction
  have hpow : (0 : ℚ) < 10 ^ j := by positivity
  have hlength : (10 : ℚ) ^ fraction.length = 10 ^ j * 10 ^ (fraction.length - j) := by
    rw [← pow_add, Nat.add_sub_of_le h.le_length]
  refine ⟨a / 10 ^ j, b / 10 ^ fraction.length, ?_, by positivity, ?_, by positivity, ?_, ?_, ?_⟩
  · rw [hs, mul_add, mul_div_cancel₀ _ hpow.ne']
    push_cast
    rfl
  · rw [div_lt_one hpow]
    exact_mod_cast ha
  · have hcast : (b : ℚ) < 10 ^ (fraction.length - j) := by exact_mod_cast hb
    rw [hlength, div_lt_div_iff₀ (by positivity) hpow, one_mul, mul_comm]
    gcongr
  · intro hall
    have hzero : b = 0 := by simpa [hall] using hb
    rw [hzero, Nat.cast_zero, zero_div]
  · rw [hsplit, hlength]
    push_cast
    field_simp

/-- The digits that were taken stand for the number up to those that were dropped.  Digits are only
dropped once there are many; it may even happen that some are taken again behind the point. -/
lemma near_magnitude {w k s j : ℕ} (hwhole : ∀ c ∈ whole, c.isDigit = true)
    (hfraction : ∀ c ∈ fraction, c.isDigit = true) (hw : Absorbed wordLimit 0 whole w k)
    (hs : Absorbed wordLimit w fraction s j) :
    Near (1 / 2 ^ 60) (s * 10 ^ ((whole.length - k : ℕ) - (j : ℤ)))
      (Decimal.magnitude whole fraction) := by
  obtain ⟨w', d, hw', -, hsplit, hd⟩ := hw.exists_split hwhole
  obtain rfl : w = w' := by rw [hw', Nat.mul_zero, Nat.zero_add]
  obtain ⟨A, B, hsum, hA, hA', hB, hB', hall, hrest⟩ := hs.exists_rest hfraction
  have hpow : (0 : ℚ) < 10 ^ j := by positivity
  have hdrop : (d : ℚ) + 1 ≤ 10 ^ (whole.length - k) := by exact_mod_cast hd
  have hmagnitude : Decimal.magnitude whole fraction =
      10 ^ (whole.length - k) * w + d + (A + B) := by
    rw [Decimal.magnitude, hsplit, hrest]
    push_cast
    rfl
  have hvalue : (s : ℚ) * 10 ^ ((whole.length - k : ℕ) - (j : ℤ)) =
      10 ^ (whole.length - k) * (w + A) := by
    rw [hsum, zpow_sub₀ (by norm_num), zpow_natCast, zpow_natCast]
    field_simp
  rw [hvalue, hmagnitude]
  rcases Nat.eq_zero_or_pos (whole.length - k) with hleft | hleft
  · -- all digits before the point were taken
    rw [hleft, pow_zero] at hdrop ⊢
    have hzero : (d : ℚ) = 0 := le_antisymm (by linarith) (Nat.cast_nonneg d)
    rw [hzero, one_mul, one_mul, add_zero, ← add_assoc]
    rcases hs.le_length.eq_or_lt with hj | hj
    · rw [hall hj, add_zero]
      exact Near.refl (by positivity) _
    · have hmany : (2 : ℚ) ^ 60 ≤ s := by exact_mod_cast pow_le_of_wordLimit_le (hs.full hj)
      have hunit : (2 : ℚ) ^ 60 * (1 / 10 ^ j) ≤ w + A := by
        rw [mul_one_div, div_le_iff₀' hpow, ← hsum]
        exact hmany
      have hpositive : (0 : ℚ) < 1 / 10 ^ j := by positivity
      generalize (1 : ℚ) / 10 ^ j = unit at hB' hunit hpositive
      refine Near.of_abs_sub_le (by linarith) ?_
      rw [abs_le]
      constructor <;> linarith
  · have hmany : (2 : ℚ) ^ 60 ≤ w := by
      exact_mod_cast pow_le_of_wordLimit_le (hw.full (Nat.lt_of_sub_pos hleft))
    have hsmall : B < 1 := by
      refine hB'.trans_le ?_
      rw [div_le_one hpow]
      exact one_le_pow₀ (by norm_num)
    have hd' : (0 : ℚ) ≤ d := Nat.cast_nonneg d
    generalize (10 : ℚ) ^ (whole.length - k) = T at hdrop ⊢
    have hlow : T * 2 ^ 60 ≤ T * w := mul_le_mul_of_nonneg_left hmany (by linarith)
    have hone : A ≤ T * A := le_mul_of_one_le_left hA (by linarith)
    have htop : T * A ≤ T := mul_le_of_le_one_right (by linarith) hA'.le
    refine Near.of_abs_sub_le (by linarith) ?_
    rw [abs_le]
    constructor <;> linarith

/-- The digits of a number with a point are taken as a whole number times a power of ten. -/
lemma exists_significand (negative : Bool) (hwhole : ∀ c ∈ whole, c.isDigit = true)
    (hfraction : ∀ c ∈ fraction, c.isDigit = true) (hne : fraction ≠ []) :
    ∃ (s : ℕ) (place : ℤ), value ⟨negative, whole, fraction, none⟩ = real negative s place ∧
      s < 2 ^ 64 ∧ -(fraction.length : ℤ) ≤ place ∧ place ≤ whole.length ∧
      Near (1 / 2 ^ 60) (s * 10 ^ place) (Decimal.magnitude whole fraction) := by
  have hw := absorbed_absorb wordLimit 0 hwhole
  have hs := absorbed_absorb wordLimit (absorb wordLimit 0 whole).1 hfraction
  refine ⟨_, _, by simp [value, hne], ?_, ?_, ?_, near_magnitude hwhole hfraction hw hs⟩
  · exact Nat.lt_of_le_pred (by decide) (hs.le_limit (hw.le_limit (Nat.zero_le _)))
  · have hle := hs.le_length
    omega
  · omega

end Significand

/-! ### Scaling -/

section Scaling

open Binary

/-- A whole number of moderate size is rounded without much loss. -/
lemma exists_ofNat_near {n : ℕ} (hn : (n : ℚ) ≤ 2 ^ (500 : ℤ)) :
    ∃ m e, ofNat double n = finite false m e ∧ Near (1 / 2 ^ 53) (m * 2 ^ e) n := by
  have hlow : n = 0 ∨ 2 ^ (-500 : ℤ) ≤ (n : ℚ) / (1 : ℕ) := by
    rcases Nat.eq_zero_or_pos n with hzero | hpos
    · exact Or.inl hzero
    · right
      have hone : (1 : ℚ) ≤ n := by exact_mod_cast hpos
      rw [Nat.cast_one, div_one]
      exact (zpow_le_one_of_nonpos₀ one_le_two (by decide)).trans hone
  have hhigh : (n : ℚ) / (1 : ℕ) ≤ 2 ^ (500 : ℤ) := by rwa [Nat.cast_one, div_one]
  obtain ⟨m, e, hround, hnear⟩ := exists_double_near Nat.one_pos false hlow hhigh
  rw [Nat.cast_one, div_one] at hnear
  exact ⟨m, e, hround, hnear⟩

/-- Powers of ten that are not too large or too small. -/
lemma pow_ten_bounds {place : ℤ} (hlow : -60 ≤ place) (hhigh : place ≤ 60) :
    (2 : ℚ) ^ (-240 : ℤ) ≤ 10 ^ place ∧ (10 : ℚ) ^ place ≤ 2 ^ (240 : ℤ) := by
  constructor
  · refine le_trans ?_ (zpow_le_zpow_right₀ (by norm_num) hlow)
    norm_num
  · refine (zpow_le_zpow_right₀ (by norm_num) hhigh).trans ?_
    norm_num

/-- What is scaled is zero or far from both ends of the 64-bit format. -/
lemma scaled_bounds {s : ℕ} {place : ℤ} (hs : s < 2 ^ 64) (hlow : -60 ≤ place)
    (hhigh : place ≤ 60) :
    ((s : ℚ) * 10 ^ place = 0 ∨ 2 ^ (-400 : ℤ) ≤ (s : ℚ) * 10 ^ place) ∧
      (s : ℚ) * 10 ^ place ≤ 2 ^ (400 : ℤ) := by
  obtain ⟨hleast, hgreatest⟩ := pow_ten_bounds hlow hhigh
  constructor
  · rcases Nat.eq_zero_or_pos s with rfl | hpos
    · left
      rw [Nat.cast_zero, zero_mul]
    · right
      have hone : (1 : ℚ) ≤ s := by exact_mod_cast hpos
      calc (2 : ℚ) ^ (-400 : ℤ) ≤ 2 ^ (-240 : ℤ) := zpow_le_zpow_right₀ one_le_two (by decide)
        _ ≤ 10 ^ place := hleast
        _ ≤ s * 10 ^ place := le_mul_of_one_le_left (by positivity) hone
  · have hcast : (s : ℚ) ≤ 2 ^ (64 : ℤ) := by exact_mod_cast hs.le
    calc (s : ℚ) * 10 ^ place ≤ 2 ^ (64 : ℤ) * 2 ^ (240 : ℤ) := by gcongr
      _ = 2 ^ (64 + 240 : ℤ) := (zpow_add₀ two_ne_zero _ _).symm
      _ ≤ 2 ^ (400 : ℤ) := zpow_le_zpow_right₀ one_le_two (by decide)

section Rounded

variable {a b : ℚ} {m m' : ℕ} {e e' : ℤ}

/-- The rounded product of two rounded numbers. -/
lemma exists_multiply_near (hm : Near (1 / 2 ^ 53) (m * 2 ^ e) a)
    (hm' : Near (1 / 2 ^ 53) (m' * 2 ^ e') b) (hlow : a * b = 0 ∨ 2 ^ (-400 : ℤ) ≤ a * b)
    (hhigh : a * b ≤ 2 ^ (400 : ℤ)) :
    ∃ m'' e'', multiply double (finite false m e) (finite false m' e') = finite false m'' e'' ∧
      Near (6 / 2 ^ 53) (m'' * 2 ^ e'') (a * b) := by
  have hproduct := hm.mul hm'
  rw [mul_mul_mul_comm, ← zpow_add₀ two_ne_zero, ← Nat.cast_mul, ← cast_quotient] at hproduct
  obtain ⟨m'', e'', hround, hnear⟩ := exists_double_of_near (quotient_snd_pos _ _) false hproduct
    (by norm_num) hlow hhigh
  exact ⟨m'', e'', hround, hnear.mono (by norm_num)⟩

/-- The rounded quotient of two rounded numbers. -/
lemma exists_divide_near (hm : Near (1 / 2 ^ 53) (m * 2 ^ e) a)
    (hm' : Near (1 / 2 ^ 53) (m' * 2 ^ e') b) (hb : 0 < b)
    (hlow : a / b = 0 ∨ 2 ^ (-400 : ℤ) ≤ a / b) (hhigh : a / b ≤ 2 ^ (400 : ℤ)) :
    ∃ m'' e'', divide double (finite false m e) (finite false m' e') = finite false m'' e'' ∧
      Near (6 / 2 ^ 53) (m'' * 2 ^ e'') (a / b) := by
  have hpos : 0 < m' := by
    have hproduct := hm'.pos (by norm_num) hb
    exact_mod_cast pos_of_mul_pos_left hproduct (by positivity)
  have hquotient := hm.div hm' (by norm_num)
  rw [mul_div_mul_comm, ← zpow_sub₀ two_ne_zero, div_mul_eq_mul_div, ← cast_quotient, div_div,
    ← Nat.cast_mul] at hquotient
  obtain ⟨m'', e'', hround, hnear⟩ := exists_double_of_near
    (Nat.mul_pos (quotient_snd_pos m (e - e')) hpos) false hquotient (by norm_num) hlow hhigh
  exact ⟨m'', e'', hround, hnear.mono (by norm_num)⟩

end Rounded

/-- Scaling rounds the number, the power of ten, and their product or quotient. -/
lemma exists_scale {s : ℕ} {place : ℤ} (hs : s < 2 ^ 64) (hlow : -60 ≤ place) (hhigh : place ≤ 60) :
    ∃ m e, scale (ofNat double s) place = some (finite false m e) ∧
      Near (6 / 2 ^ 53) (m * 2 ^ e) (s * 10 ^ place) := by
  obtain ⟨hleast, hgreatest⟩ := scaled_bounds hs hlow hhigh
  have hs' : (s : ℚ) ≤ 2 ^ (500 : ℤ) := by
    calc (s : ℚ) ≤ 2 ^ (64 : ℤ) := by exact_mod_cast hs.le
      _ ≤ 2 ^ (500 : ℤ) := zpow_le_zpow_right₀ one_le_two (by decide)
  have hten : ((10 ^ place.natAbs : ℕ) : ℚ) ≤ 2 ^ (500 : ℤ) := by
    calc ((10 ^ place.natAbs : ℕ) : ℚ) = 10 ^ (place.natAbs : ℤ) := by norm_cast
      _ ≤ 2 ^ (240 : ℤ) := (pow_ten_bounds (by omega) (by omega)).2
      _ ≤ 2 ^ (500 : ℤ) := zpow_le_zpow_right₀ one_le_two (by decide)
  obtain ⟨m, e, hnumber, hm⟩ := exists_ofNat_near hs'
  obtain ⟨m', e', hpower, hm'⟩ := exists_ofNat_near hten
  have hpowerOfTen : powerOfTen place.natAbs = finite false m' e' := hpower
  rw [Nat.cast_pow, Nat.cast_ofNat] at hm'
  have hlimit : place.natAbs ≤ powerLimit := by
    unfold powerLimit
    omega
  rw [scale, if_pos hlimit, hnumber, hpowerOfTen]
  split_ifs with hsign
  · have hplace : (10 : ℚ) ^ place = 10 ^ place.natAbs := by
      rw [← zpow_natCast, Int.natAbs_of_nonneg hsign]
    rw [hplace] at hleast hgreatest ⊢
    obtain ⟨m'', e'', hmultiply, hnear⟩ := exists_multiply_near hm hm' hleast hgreatest
    rw [hmultiply]
    exact ⟨m'', e'', rfl, hnear⟩
  · have hplace : (s : ℚ) * 10 ^ place = s / 10 ^ place.natAbs := by
      have habs : -(place.natAbs : ℤ) = place := by omega
      rw [div_eq_mul_inv, ← zpow_natCast, ← zpow_neg, habs]
    rw [hplace] at hleast hgreatest ⊢
    obtain ⟨m'', e'', hdivide, hnear⟩ :=
      exists_divide_near hm hm' (by positivity) hleast hgreatest
    rw [hdivide]
    exact ⟨m'', e'', rfl, hnear⟩

/-- A number with a point is read with less than one part in `2 ^ 50` of loss. -/
lemma exists_value_near {whole fraction : List Char} (negative : Bool)
    (hwhole : ∀ c ∈ whole, c.isDigit = true) (hfraction : ∀ c ∈ fraction, c.isDigit = true)
    (hne : fraction ≠ []) (hwhole_le : whole.length ≤ 60) (hfraction_le : fraction.length ≤ 60) :
    ∃ m e, value ⟨negative, whole, fraction, none⟩ = .ok (.real (finite negative m e)) ∧
      Near (1 / 2 ^ 50) (m * 2 ^ e) (Decimal.magnitude whole fraction) := by
  obtain ⟨s, place, hvalue, hs, hlow, hhigh, hdigits⟩ :=
    exists_significand negative hwhole hfraction hne
  obtain ⟨m, e, hscale, hnear⟩ := exists_scale hs (by omega : -60 ≤ place) (by omega)
  refine ⟨m, e, ?_, (hnear.trans hdigits).mono (by norm_num)⟩
  rw [hvalue, real, hscale]
  cases negative <;> rfl

end Scaling

end Numeral

/-! ### The grammar -/

namespace Token

/-- Digits are taken up to the first character that is none. -/
lemma someDigits_append {ds rest : List Char} (hds : ∀ c ∈ ds, isDigit c = true) (hne : ds ≠ [])
    (hrest : ∀ c ∈ rest.head?, isDigit c = false) : someDigits (ds ++ rest) = .ok (ds, rest) := by
  have hstop : rest.takeWhile isDigit = [] ∧ rest.dropWhile isDigit = rest := by
    cases rest with
    | nil => simp
    | cons c rest => simp [hrest c rfl]
  unfold someDigits
  rw [List.takeWhile_append_of_pos hds, List.dropWhile_append_of_pos hds, hstop.1, hstop.2,
    List.append_nil]
  cases ds with
  | nil => exact absurd rfl hne
  | cons d ds => rfl

/-- The digits before a point. -/
lemma wholeDigits_append_point {ds : List Char} (hds : ∀ c ∈ ds, isDigit c = true)
    (hzero : ds = ['0'] ∨ ∃ c cs, ds = c :: cs ∧ c ≠ '0') (rest : List Char) :
    wholeDigits (ds ++ '.' :: rest) = .ok (ds, '.' :: rest) := by
  obtain rfl | ⟨c, cs, rfl, hc⟩ := hzero
  · rfl
  · rw [List.cons_append, wholeDigits_of_ne hc, ← List.cons_append]
    exact someDigits_append hds (List.cons_ne_nil c cs) (by simp [isDigit])

/-- A decimal text to which nothing can be added is a number. -/
lemma numeral_spelling {d : Decimal.Spelling} (h : d.IsCanonical) :
    numeral d.negative (d.whole ++ '.' :: d.fraction) =
      .ok (⟨d.negative, d.whole, d.fraction, none⟩, []) := by
  have hwhole := wholeDigits_append_point d.isDigit_whole h.whole d.fraction
  have hfraction : fractionDigits ('.' :: d.fraction) = .ok (d.fraction, []) := by
    have hnil : ∀ c ∈ ([] : List Char).head?, isDigit c = false := by simp
    have hdigits := someDigits_append d.isDigit_fraction h.fraction_ne_nil hnil
    rwa [List.append_nil] at hdigits
  simp only [numeral, hwhole, hfraction]
  rfl

/-- A number without a sign starts with a digit. -/
lemma next_of_isDigit {c : Char} (hc : isDigit c = true) (cs : List Char) :
    next c cs = ofNumber false (c :: cs) := by
  have hquote : c ≠ '"' := by
    rintro rfl
    exact absurd hc (by decide)
  have hminus : c ≠ '-' := by
    rintro rfl
    exact absurd hc (by decide)
  rw [next, if_neg hquote, if_neg hminus, if_pos hc]

lemma isSpace_of_isDigit {c : Char} (hc : isDigit c = true) : isSpace c = false := by
  unfold isSpace
  simp only [Bool.or_eq_false_iff, beq_eq_false_iff_ne]
  refine ⟨⟨⟨?_, ?_⟩, ?_⟩, ?_⟩ <;> rintro rfl <;> exact absurd hc (by decide)

end Token

namespace Tree

/-- A text that is one number. -/
lemma read_of_next {s : String} {c : Char} {cs : List Char} {v : Number} (hs : s.toList = c :: cs)
    (hspace : Token.isSpace c = false)
    (hnext : Token.next c cs = (.scalar (.ok (.number v)), some [])) :
    read s = ⟨.number v, false⟩ := by
  unfold read
  rw [hs, Token.lex_cons_of_next hspace hnext]
  rfl

/-- A decimal text to which nothing can be added is read as the number it stands for. -/
lemma read_spelling {d : Decimal.Spelling} (h : d.IsCanonical) {v : Number}
    (hvalue : Numeral.value ⟨d.negative, d.whole, d.fraction, none⟩ = .ok v) :
    read d.text = ⟨.number v, false⟩ := by
  have htext := d.toList_text
  have hnumber : Token.ofNumber d.negative (d.whole ++ '.' :: d.fraction) =
      (.scalar (.ok (.number v)), some []) := by
    simp only [Token.ofNumber, Token.numeral_spelling h, hvalue]
  cases hnegative : d.negative with
  | true =>
    rw [hnegative] at htext hnumber
    have hnext : Token.next '-' (d.whole ++ '.' :: d.fraction) =
        Token.ofNumber true (d.whole ++ '.' :: d.fraction) := rfl
    exact read_of_next htext (by decide) (hnext.trans hnumber)
  | false =>
    obtain ⟨c, cs, hwhole⟩ := List.exists_cons_of_ne_nil h.whole_ne_nil
    have hc : Token.isDigit c = true := d.isDigit_whole c (by simp [hwhole])
    rw [hnegative, hwhole] at htext hnumber
    exact read_of_next htext (Token.isSpace_of_isDigit hc)
      ((Token.next_of_isDigit hc _).trans hnumber)

end Tree

end Json

end MaterialGraph
