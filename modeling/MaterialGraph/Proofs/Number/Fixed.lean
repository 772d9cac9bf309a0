import Mathlib
import MaterialGraph.Number.Fixed
import MaterialGraph.Proofs.Number.Binary

/-!
# Decimal texts with six places

A decimal text has a sign, digits, a point and digits (`Decimal.Spelling`), and stands for one
number.  The text of a count of millionths is such a text, and it has no character that could be
left out (`Decimal.isCanonical_spelling`).  So the text of a floating-point value tells the number
of millionths nearest to the value, and nothing else about it (`Binary.fixedText_eq_text`).
-/

namespace MaterialGraph

namespace Decimal

/-! ### Spellings -/

/-- The number that the digits before and behind a point stand for. -/
def magnitude (whole fraction : List Char) : ℚ :=
  Nat.ofDigitChars 10 whole 0 + Nat.ofDigitChars 10 fraction 0 / 10 ^ fraction.length

/-- A decimal number as it is written: a sign, digits, a point, digits. -/
structure Spelling where
  negative : Bool
  whole : List Char
  fraction : List Char
  isDigit_whole : ∀ c ∈ whole, c.isDigit = true
  isDigit_fraction : ∀ c ∈ fraction, c.isDigit = true

namespace Spelling

/-- The characters of the text. -/
def text (d : Spelling) : String :=
  (if d.negative then "-" else "") ++ String.ofList d.whole ++ "." ++ String.ofList d.fraction

/-- The number that the text stands for. -/
def value (d : Spelling) : ℚ :=
  Binary.signed d.negative (magnitude d.whole d.fraction)

/-- Nothing can be left out: there are no zeros in front or at the end, except for the one digit
that has to stand on each side of the point, and zero has no sign.  There are at most six digits
behind the point. -/
structure IsCanonical (d : Spelling) : Prop where
  whole : d.whole = ['0'] ∨ ∃ c cs, d.whole = c :: cs ∧ c ≠ '0'
  fraction : d.fraction = ['0'] ∨ d.fraction ≠ [] ∧ d.fraction.getLast? ≠ some '0'
  length_le : d.fraction.length ≤ 6
  sign : d.negative = true → d.value ≠ 0

lemma IsCanonical.whole_ne_nil {d : Spelling} (h : d.IsCanonical) : d.whole ≠ [] := by
  obtain hzero | ⟨c, cs, hcons, -⟩ := h.whole
  · exact hzero ▸ List.cons_ne_nil _ _
  · exact hcons ▸ List.cons_ne_nil _ _

lemma IsCanonical.fraction_ne_nil {d : Spelling} (h : d.IsCanonical) : d.fraction ≠ [] := by
  obtain hzero | ⟨hne, -⟩ := h.fraction
  · exact hzero ▸ List.cons_ne_nil _ _
  · exact hne

/-- The characters of a spelling, one part after the other. -/
lemma toList_text (d : Spelling) :
    d.text.toList = (if d.negative then ['-'] else []) ++ (d.whole ++ '.' :: d.fraction) := by
  unfold text
  split_ifs <;> simp

/-- The digits before the point end at the point. -/
lemma takeWhile_isDigit (d : Spelling) :
    (d.whole ++ '.' :: d.fraction).takeWhile Char.isDigit = d.whole := by
  rw [List.takeWhile_append_of_pos d.isDigit_whole]
  exact List.append_nil _

/-- A minus sign in front tells a negative text. -/
lemma negative_iff (d : Spelling) : d.negative = true ↔ d.text.toList.head? = some '-' := by
  rw [toList_text]
  cases hnegative : d.negative with
  | true => simp
  | false =>
    cases hwhole : d.whole with
    | nil => simp
    | cons c cs =>
      have hc : c ≠ '-' := by
        rintro rfl
        exact absurd (d.isDigit_whole '-' (by simp [hwhole])) (by decide)
      simp [hc]

/-- The parts of a text can be told from the text. -/
lemma text_injective {d d' : Spelling} (h : d.text = d'.text) : d = d' := by
  have hnegative : d.negative = d'.negative := by
    rw [Bool.eq_iff_iff, negative_iff, negative_iff, h]
  have hparts : d.whole ++ '.' :: d.fraction = d'.whole ++ '.' :: d'.fraction := by
    have hlist := congrArg String.toList h
    rw [toList_text, toList_text, hnegative] at hlist
    exact List.append_cancel_left hlist
  have hwhole : d.whole = d'.whole := by
    rw [← d.takeWhile_isDigit, hparts, d'.takeWhile_isDigit]
  have hfraction : d.fraction = d'.fraction := by
    rw [hwhole] at hparts
    exact (List.cons.inj (List.append_cancel_left hparts)).2
  obtain ⟨negative, whole, fraction, _, _⟩ := d
  obtain ⟨negative', whole', fraction', _, _⟩ := d'
  obtain rfl : negative = negative' := hnegative
  obtain rfl : whole = whole' := hwhole
  obtain rfl : fraction = fraction' := hfraction
  rfl

end Spelling

/-- A text stands for a number. -/
def Denotes (s : String) (q : ℚ) : Prop :=
  ∃ d : Spelling, d.text = s ∧ d.value = q

/-- A text stands for one number only. -/
lemma Denotes.unique {s : String} {q r : ℚ} (hq : Denotes s q) (hr : Denotes s r) : q = r := by
  obtain ⟨d, rfl, rfl⟩ := hq
  obtain ⟨d', htext, rfl⟩ := hr
  rw [Spelling.text_injective htext]

/-! ### Digits -/

/-- The digit of the last place is the usual one. -/
lemma digit_eq (n : ℕ) : digit n = Nat.digitChar (n % 10) := by
  have hdigits : ∀ k < 10, Char.ofNat ('0'.toNat + k) = Nat.digitChar k := by decide
  exact hdigits (n % 10) (Nat.mod_lt n (by decide))

lemma isDigit_of_mem_digits {width n : ℕ} {c : Char} (h : c ∈ digits width n) :
    c.isDigit = true := by
  induction width with
  | zero => simp [digits] at h
  | succ width ih =>
    rcases List.mem_cons.mp h with rfl | h
    · rw [digit_eq, Nat.isDigit_digitChar]
      exact decide_eq_true (Nat.mod_lt _ (by decide))
    · exact ih h

/-- The last digits of a number stand for its remainder. -/
lemma ofDigitChars_digits (width n : ℕ) :
    Nat.ofDigitChars 10 (digits width n) 0 = n % 10 ^ width := by
  induction width with
  | zero => simp [digits, Nat.mod_one]
  | succ width ih =>
    have hdigit : (digit (n / 10 ^ width)).toNat - '0'.toNat = n / 10 ^ width % 10 := by
      rw [digit_eq]
      exact Nat.toNat_digitChar_sub_48_of_lt_ten (Nat.mod_lt _ (by decide))
    have hcons : digits (width + 1) n = digit (n / 10 ^ width) :: digits width n := rfl
    rw [hcons, Nat.ofDigitChars_cons, Nat.ofDigitChars_eq_ofDigitChars_zero, ih, hdigit,
      length_digits, Nat.mul_zero, Nat.zero_add, Nat.pow_succ, Nat.mod_mul, Nat.add_comm]

/-- What is left when the zeros at the end are left out, and how many they were. -/
lemma exists_places (ds : List Char) :
    ∃ kept k, ds = kept ++ List.replicate k '0' ∧ kept.getLast? ≠ some '0' ∧
      places ds = if kept = [] then ['0'] else kept := by
  have hzeros : ∀ c ∈ ds.reverse.takeWhile (· == '0'), c = '0' := by
    intro c hc
    exact eq_of_beq (List.mem_takeWhile_imp (p := (· == '0')) hc)
  refine ⟨(ds.reverse.dropWhile (· == '0')).reverse, (ds.reverse.takeWhile (· == '0')).length,
    ?_, ?_, ?_⟩
  · rw [← List.reverse_replicate, ← List.eq_replicate_of_mem hzeros, ← List.reverse_append,
      List.takeWhile_append_dropWhile, List.reverse_reverse]
  · intro hlast
    rw [List.getLast?_reverse] at hlast
    have hhead := List.head?_dropWhile_not (· == '0') ds.reverse
    rw [hlast] at hhead
    exact absurd hhead (by decide)
  · unfold places
    split
    · rename_i h
      rw [h, if_pos rfl]
    · rename_i kept h
      rw [if_neg h]

/-- The zeros at the end do not matter for the number. -/
lemma ofDigitChars_places (ds : List Char) :
    (Nat.ofDigitChars 10 (places ds) 0 : ℚ) / 10 ^ (places ds).length =
      Nat.ofDigitChars 10 ds 0 / 10 ^ ds.length := by
  obtain ⟨kept, k, rfl, -, hplaces⟩ := exists_places ds
  rw [hplaces, Nat.ofDigitChars_append, Nat.ofDigitChars_replicate_zero, List.length_append,
    List.length_replicate, pow_add]
  split_ifs with hkept
  · simp [hkept, Nat.ofDigitChars]
  · push_cast
    rw [mul_comm, mul_div_mul_right _ _ (by positivity)]

/-- The digits of a positive number do not start with zero. -/
lemma exists_toDigits_eq_cons {n : ℕ} (hn : n ≠ 0) :
    ∃ c cs, Nat.toDigits 10 n = c :: cs ∧ c ≠ '0' := by
  induction n using Nat.strong_induction_on with
  | _ n ih =>
    by_cases hlt : n < 10
    · refine ⟨_, [], Nat.toDigits_of_lt_base hlt, ?_⟩
      rwa [Ne, Nat.digitChar_eq_zero]
    · obtain ⟨c, cs, hdigits, hc⟩ := ih (n / 10) (by omega) (by omega)
      refine ⟨c, cs ++ [(n % 10).digitChar], ?_, hc⟩
      rw [Nat.toDigits_of_base_le (by decide) (not_lt.mp hlt), hdigits, List.cons_append]

/-! ### Counts of millionths -/

/-- How a count of millionths is written. -/
def spelling (negative : Bool) (units : ℕ) : Spelling where
  negative := negative && units != 0
  whole := Nat.toDigits 10 (units / million)
  fraction := places (digits 6 (units % million))
  isDigit_whole c hc := Nat.isDigit_of_mem_toDigits (by decide) (by decide) hc
  isDigit_fraction c hc := by
    obtain ⟨kept, k, hdigits, -, hplaces⟩ := exists_places (digits 6 (units % million))
    rw [hplaces] at hc
    split_ifs at hc
    · rw [List.mem_singleton.mp hc]
      rfl
    · exact isDigit_of_mem_digits (hdigits ▸ List.mem_append_left _ hc)

/-- The sign of zero is not written. -/
lemma text_congr {negative negative' : Bool} {units : ℕ} (h : units ≠ 0 → negative = negative') :
    text negative units = text negative' units := by
  by_cases hunits : units = 0
  · simp [text, hunits]
  · rw [h hunits]

lemma text_spelling (negative : Bool) (units : ℕ) :
    (spelling negative units).text = text negative units := rfl

/-- The digits stand for that many millionths. -/
lemma magnitude_spelling (negative : Bool) (units : ℕ) :
    magnitude (spelling negative units).whole (spelling negative units).fraction =
      units / 10 ^ 6 := by
  have hmillion : million = 10 ^ 6 := rfl
  simp only [spelling, magnitude]
  rw [ofDigitChars_places, ofDigitChars_digits, length_digits, Nat.ofDigitChars_ten_toDigits,
    hmillion, Nat.mod_mod, eq_div_iff (by norm_num), add_mul, div_mul_cancel₀ _ (by norm_num)]
  exact_mod_cast Nat.div_add_mod' units (10 ^ 6)

/-- The text stands for that many millionths, with the sign. -/
lemma value_spelling (negative : Bool) (units : ℕ) :
    (spelling negative units).value = Binary.signed negative (units / 10 ^ 6) := by
  unfold Spelling.value
  rw [magnitude_spelling]
  simp only [spelling]
  -- zero is the same number with a sign and without
  cases negative with
  | false => rfl
  | true =>
    by_cases hunits : units = 0
    · simp [hunits, Binary.signed]
    · rw [bne_iff_ne.mpr hunits]
      rfl

/-- The digits behind the point are those of the millionths without the zeros at the end. -/
lemma exists_fraction_spelling (negative : Bool) (units : ℕ) :
    ∃ kept k, digits 6 (units % million) = kept ++ List.replicate k '0' ∧
      kept.getLast? ≠ some '0' ∧
      (spelling negative units).fraction = if kept = [] then ['0'] else kept :=
  exists_places (digits 6 (units % million))

/-- The text has no character that could be left out. -/
lemma isCanonical_spelling (negative : Bool) (units : ℕ) :
    (spelling negative units).IsCanonical where
  whole := by
    by_cases hwhole : units / million = 0
    · left
      exact (congrArg (Nat.toDigits 10) hwhole).trans (Nat.toDigits_zero 10)
    · exact Or.inr (exists_toDigits_eq_cons hwhole)
  fraction := by
    obtain ⟨kept, k, -, hlast, hfraction⟩ := exists_fraction_spelling negative units
    rw [hfraction]
    split_ifs with hkept
    · exact Or.inl rfl
    · exact Or.inr ⟨hkept, hlast⟩
  length_le := by
    obtain ⟨kept, k, hdigits, -, hfraction⟩ := exists_fraction_spelling negative units
    have hlength := congrArg List.length hdigits
    rw [length_digits, List.length_append] at hlength
    rw [hfraction]
    split_ifs
    · decide
    · omega
  sign := by
    intro hnegative
    have hunits : negative = true ∧ units ≠ 0 := by simpa [spelling] using hnegative
    rw [value_spelling, hunits.1]
    have hsize : (units : ℚ) / 10 ^ 6 ≠ 0 := by
      exact div_ne_zero (Nat.cast_ne_zero.mpr hunits.2) (by norm_num)
    simpa [Binary.signed] using hsize

end Decimal

namespace Binary

open Decimal

/-! ### Texts of values -/

/-- The millionths that are counted are the nearest ones to the value. -/
lemma isNearest_millionths (mantissa : ℕ) (exponent : ℤ) :
    IsNearest (mantissa * 2 ^ exponent * 10 ^ 6) (millionths mantissa exponent : ℕ) := by
  have hnear := isNearest_roundDiv ((quotient mantissa exponent).1 * million)
    (quotient_snd_pos mantissa exponent)
  have hmillion : (million : ℚ) = 10 ^ 6 := by norm_num [million]
  rw [Nat.cast_mul, mul_div_right_comm, cast_quotient, hmillion] at hnear
  exact hnear

/-- The nearest number of millionths has the sign of the value. -/
lemma isNearest_signed (negative : Bool) (mantissa : ℕ) (exponent : ℤ) :
    IsNearest (signed negative (mantissa * 2 ^ exponent) * 10 ^ 6)
      (if negative then -(millionths mantissa exponent : ℤ) else millionths mantissa exponent) := by
  have hunits := isNearest_millionths mantissa exponent
  unfold signed
  split_ifs
  · rw [neg_mul]
    exact hunits.neg
  · exact hunits

/-- A value has a nearest number of millionths. -/
lemma exists_isNearest {x : Binary} {q : ℚ} (hx : x.value? = some q) :
    ∃ n, IsNearest (q * 10 ^ 6) n := by
  cases x with
  | infinite | nan => cases hx
  | finite negative mantissa exponent =>
    obtain rfl := Option.some.inj hx
    exact ⟨_, isNearest_signed negative mantissa exponent⟩

/-- The text of a value tells the nearest number of millionths, and depends on nothing else. -/
lemma fixedText_eq_text {x : Binary} {q : ℚ} {n : ℤ} (hx : x.value? = some q)
    (hn : IsNearest (q * 10 ^ 6) n) : x.fixedText = Decimal.text (decide (n < 0)) n.natAbs := by
  cases x with
  | infinite | nan => cases hx
  | finite negative mantissa exponent =>
    obtain rfl := Option.some.inj hx
    obtain rfl := hn.unique (isNearest_signed negative mantissa exponent)
    have htext : (finite negative mantissa exponent).fixedText =
        Decimal.text negative (millionths mantissa exponent) := rfl
    rw [htext]
    generalize millionths mantissa exponent = units
    cases negative with
    | false =>
      rw [if_neg Bool.false_ne_true, Int.natAbs_natCast]
      refine text_congr fun _ => ?_
      rw [eq_comm, decide_eq_false_iff_not]
      omega
    | true =>
      rw [if_pos rfl, Int.natAbs_neg, Int.natAbs_natCast]
      refine text_congr fun hne => ?_
      rw [eq_comm, decide_eq_true_iff]
      omega

/-- A number with its sign is that sign in front of its size. -/
lemma signed_natAbs (n : ℤ) : signed (decide (n < 0)) (n.natAbs / 10 ^ 6) = n / 10 ^ 6 := by
  unfold signed
  rw [Nat.cast_natAbs, Int.cast_abs]
  split_ifs with h
  · have hneg : (n : ℚ) < 0 := by exact_mod_cast of_decide_eq_true h
    rw [abs_of_neg hneg, neg_div, neg_neg]
  · have hpos : (0 : ℚ) ≤ n := by
      have hint : 0 ≤ n := not_lt.mp (mt decide_eq_true h)
      exact_mod_cast hint
    rw [abs_of_nonneg hpos]

/-- The text of a value stands for the nearest number of millionths. -/
lemma denotes_fixedText {x : Binary} {q : ℚ} {n : ℤ} (hx : x.value? = some q)
    (hn : IsNearest (q * 10 ^ 6) n) : Denotes x.fixedText (n / 10 ^ 6) := by
  refine ⟨spelling (decide (n < 0)) n.natAbs, ?_, ?_⟩
  · rw [text_spelling, fixedText_eq_text hx hn]
  · rw [value_spelling, signed_natAbs]

/-- What is not finite is written as zero. -/
lemma fixedText_of_value?_eq_none {x : Binary} (hx : x.value? = none) : x.fixedText = "0.0" := by
  cases x with
  | finite => cases hx
  | infinite | nan => rfl

/-- Zero is not written with a sign. -/
lemma fixedText_ne_negative_zero (x : Binary) : x.fixedText ≠ "-0.0" := by
  intro h
  cases hx : x.value? with
  | none =>
    rw [fixedText_of_value?_eq_none hx] at h
    exact absurd h (by decide)
  | some q =>
    obtain ⟨n, hn⟩ := exists_isNearest hx
    rw [fixedText_eq_text hx hn, ← text_spelling] at h
    have hzero : (⟨true, ['0'], ['0'], List.forall_mem_singleton.mpr rfl,
      List.forall_mem_singleton.mpr rfl⟩ : Spelling).text = "-0.0" := rfl
    have hspelling := Spelling.text_injective (h.trans hzero.symm)
    have hsign := (isCanonical_spelling (decide (n < 0)) n.natAbs).sign
    rw [hspelling] at hsign
    exact hsign rfl (by simp [Spelling.value, magnitude, signed, Nat.ofDigitChars])

/-- The text of a finite value is a decimal text without superfluous characters that stands for the
multiple of a millionth nearest to the value, a half going to the even one.  So two values have the
same text just if their nearest multiples are the same, and the numbers that the texts stand for are
in the order of the values.  Zero has no sign, and what is not finite is written as zero. -/
theorem fixedText_canonical (x y : Binary) :
    (∀ q, x.value? = some q → ∃ (d : Spelling) (n : ℤ), x.fixedText = d.text ∧ d.IsCanonical ∧
        IsNearest (q * 10 ^ 6) n ∧ d.value = n / 10 ^ 6) ∧
      x.fixedText ≠ "-0.0" ∧
      (x.value? = none → x.fixedText = "0.0") ∧
      ∀ q r, x.value? = some q → y.value? = some r →
        (∀ m n, IsNearest (q * 10 ^ 6) m → IsNearest (r * 10 ^ 6) n →
          (x.fixedText = y.fixedText ↔ m = n)) ∧
        (∀ a b, Denotes x.fixedText a → Denotes y.fixedText b → q ≤ r → a ≤ b) := by
  refine ⟨?_, fixedText_ne_negative_zero x, fixedText_of_value?_eq_none, ?_⟩
  · intro q hx
    obtain ⟨n, hn⟩ := exists_isNearest hx
    refine ⟨spelling (decide (n < 0)) n.natAbs, n, ?_, isCanonical_spelling _ _, hn, ?_⟩
    · rw [text_spelling, fixedText_eq_text hx hn]
    · rw [value_spelling, signed_natAbs]
  · intro q r hx hy
    constructor
    · intro m n hm hn
      constructor
      · intro htext
        have hm' := denotes_fixedText hx hm
        rw [htext] at hm'
        have hvalue := hm'.unique (denotes_fixedText hy hn)
        rw [div_left_inj' (by norm_num)] at hvalue
        exact_mod_cast hvalue
      · rintro rfl
        rw [fixedText_eq_text hx hm, fixedText_eq_text hy hn]
    · intro a b ha hb hle
      obtain ⟨m, hm⟩ := exists_isNearest hx
      obtain ⟨n, hn⟩ := exists_isNearest hy
      rw [ha.unique (denotes_fixedText hx hm), hb.unique (denotes_fixedText hy hn)]
      have hmono : m ≤ n := hm.mono hn (by gcongr)
      have hcast : (m : ℚ) ≤ n := by exact_mod_cast hmono
      gcongr

/-- Two values of the 32-bit format that lie half way between multiples of a millionth: one is
rounded down in size and the other one up, both to an even number. -/
theorem fixedText_canonical_halves :
    (ofBits 0xBC000000).value? = some (-1 / 128) ∧ (ofBits 0x3CC00000).value? = some (3 / 128) ∧
      (ofBits 0xBC000000).fixedText = "-0.007812" ∧ (ofBits 0x3CC00000).fixedText = "0.023438" ∧
      ∀ a b, Denotes "-0.007812" a → Denotes "0.023438" b → a ≤ b := by
  have hx : (ofBits 0xBC000000).value? = some (-1 / 128) := by
    have hbits : ofBits 0xBC000000 = finite true (Nat.pow 2 23) (-30) := by decide +kernel
    rw [hbits]
    norm_num [value?, signed]
  have hy : (ofBits 0x3CC00000).value? = some (3 / 128) := by
    have hbits : ofBits 0x3CC00000 = finite false (3 * Nat.pow 2 22) (-29) := by decide +kernel
    rw [hbits]
    norm_num [value?, signed]
  have hxtext : (ofBits 0xBC000000).fixedText = "-0.007812" := by decide +kernel
  have hytext : (ofBits 0x3CC00000).fixedText = "0.023438" := by decide +kernel
  refine ⟨hx, hy, hxtext, hytext, ?_⟩
  intro a b ha hb
  rw [← hxtext] at ha
  rw [← hytext] at hb
  have horder := (fixedText_canonical (ofBits 0xBC000000) (ofBits 0x3CC00000)).2.2.2 _ _ hx hy
  exact horder.2 a b ha hb (by norm_num)

end Binary

end MaterialGraph
