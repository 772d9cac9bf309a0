import Mathlib
import MaterialGraph.Proofs.Document.Loading
import MaterialGraph.Proofs.Json.Numeral

/-!
# Numbers as literals

A number of a document is rounded to the 64-bit format, then to the 32-bit format, and then to six
decimal places.  As long as the 32-bit format has room for it, the text that comes out stands for a
number close to the one in the document (`Written.approximates_number`); a number beyond that
range is written as zero (`Written.number_of_limit_le`).

The text of a 32-bit value is a number of JSON.  If it is read as one and written again, the same
text comes out, although the value may have changed (`Written.exists_reread`).
-/

namespace MaterialGraph

namespace Json.Number

/-- The exact value of a number. -/
def value? : Number → Option ℚ
  | natural n => some n
  | negative n => some (-n)
  | real x => x.value?

/-- The numbers that are told apart: whole numbers of 64 bits and finite floating-point values. -/
inductive InRange : Number → Prop where
  | natural {n : ℕ} (h : n < 2 ^ 64) : InRange (.natural n)
  | negative {n : ℕ} (hpos : 0 < n) (h : n ≤ 2 ^ 63) : InRange (.negative n)
  | real {x : Binary} (h : Binary.double.Holds x) : InRange (.real x)

end Json.Number

namespace Document.Written

open Binary Decimal Json

/-! ### The text of a number -/

/-- The text stands for a number close to the given one: up to the precision of the 32-bit format
and a millionth. -/
def Approximates (s : String) (x : ℚ) : Prop :=
  ∃ q, Decimal.Denotes s q ∧ |q - x| ≤ |x| / 2 ^ 23 + 1 / 10 ^ 6

/-- The largest number of the 32-bit format, and half of the step that would come next. -/
lemma limit_single : single.limit = 2 ^ 128 - 2 ^ 103 := by
  norm_num [Format.limit, single]

/-- A whole number of 64 bits is rounded to a value that the 32-bit format has room for. -/
lemma exists_ofNat_lt_limit {n : ℕ} (hn : n ≤ 2 ^ 64) :
    ∃ m e, ofNat double n = finite false m e ∧ |(m : ℚ) * 2 ^ e - n| ≤ n / 2 ^ 53 ∧
      ((m : ℚ) * 2 ^ e < single.limit ↔ (n : ℚ) < single.limit) := by
  have hcast : (n : ℚ) ≤ 2 ^ 64 := by exact_mod_cast hn
  have hsize : (n : ℚ) ≤ 2 ^ (500 : ℤ) := by
    refine hcast.trans ?_
    rw [← zpow_natCast]
    exact zpow_le_zpow_right₀ one_le_two (by decide)
  obtain ⟨m, e, hofNat, hnear⟩ := Numeral.exists_ofNat_near hsize
  have herror := hnear.abs_sub_le (Nat.cast_nonneg n)
  rw [mul_one_div] at herror
  refine ⟨m, e, hofNat, herror, ?_⟩
  have hle := (abs_le.mp herror).2
  rw [limit_single]
  exact iff_of_true (by linarith) (by linarith)

/-- A number in range has a sign and a size, and is rounded to a 64-bit value of the same sign and
nearly the same size. -/
lemma exists_toDouble {n : Number} {x : ℚ} (hn : n.InRange) (hx : n.value? = some x) :
    ∃ negative size m e, 0 ≤ size ∧ x = signed negative size ∧
      n.toDouble = finite negative m e ∧ |(m : ℚ) * 2 ^ e - size| ≤ size / 2 ^ 53 ∧
      ((m : ℚ) * 2 ^ e < single.limit ↔ size < single.limit) := by
  cases hn with
  | @natural k h =>
    obtain ⟨m, e, hofNat, hclose⟩ := exists_ofNat_lt_limit h.le
    exact ⟨false, k, m, e, Nat.cast_nonneg k, (Option.some.inj hx).symm, hofNat, hclose⟩
  | @negative k hpos h =>
    obtain ⟨m, e, hofNat, hclose⟩ := exists_ofNat_lt_limit (h.trans (by decide))
    refine ⟨true, k, m, e, Nat.cast_nonneg k, (Option.some.inj hx).symm, ?_, hclose⟩
    rw [Number.toDouble, hofNat]
    rfl
  | real h =>
    cases h with
    | @finite negative m e hmantissa hleast hgreatest =>
      refine ⟨negative, m * 2 ^ e, m, e, by positivity, (Option.some.inj hx).symm, rfl, ?_,
        Iff.rfl⟩
      rw [sub_self, abs_zero]
      positivity

/-- A value that the 32-bit format has room for keeps its sign and, up to rounding, its size. -/
lemma exists_denotes_convert (negative : Bool) {m : ℕ} {e : ℤ}
    (h : (m : ℚ) * 2 ^ e < single.limit) :
    ∃ size,
      Decimal.Denotes (convert single (finite negative m e)).fixedText (signed negative size) ∧
        |size - m * 2 ^ e| ≤ m * 2 ^ e / 2 ^ 24 + 3 / 4 / 10 ^ 6 := by
  rw [← cast_quotient] at h
  obtain ⟨m', e', hround, hrounds⟩ :=
    Format.exists_round_of_lt_limit Format.single_proper negative (quotient_snd_pos m e) h
  rw [cast_quotient] at hrounds
  have hconvert : convert single (finite negative m e) = finite negative m' e' := hround
  refine ⟨millionths m' e' / 10 ^ 6, ?_, ?_⟩
  · rw [hconvert]
    exact ⟨spelling negative (millionths m' e'), text_spelling _ _, value_spelling _ _⟩
  · have hsingle := abs_le.mp (hrounds.abs_sub_le (by positivity))
    have htext := abs_le.mp (abs_sub_millionths_le m' e')
    have hprecision : (2 : ℚ) ^ single.precision = 2 ^ 24 := rfl
    have hleast : (2 : ℚ) ^ (single.least - 1) ≤ 1 / 4 / 10 ^ 6 := by
      have hle : single.least - 1 ≤ -30 := by decide
      refine (zpow_le_zpow_right₀ one_le_two hle).trans ?_
      norm_num
    rw [hprecision] at hsingle
    rw [abs_le]
    constructor <;> linarith

/-- Two numbers with the same sign are as far apart as their sizes. -/
lemma signed_sub_signed (negative : Bool) (a b : ℚ) :
    |signed negative a - signed negative b| = |a - b| := by
  cases negative with
  | false => rfl
  | true =>
    have hsigned : signed true a - signed true b = -(a - b) := by
      simp only [signed, if_true]
      ring
    rw [hsigned, abs_neg]

section Number

variable {n : Number} {x : ℚ}

/-- A number that the 32-bit format has room for is written with little loss. -/
lemma approximates_number (hn : n.InRange) (hx : n.value? = some x) (h : |x| < 2 ^ 128 - 2 ^ 103) :
    Approximates (number n) x := by
  obtain ⟨negative, size, m, e, hsize, rfl, hdouble, hclose, hlimit⟩ := exists_toDouble hn hx
  rw [abs_signed negative hsize, ← limit_single] at h
  obtain ⟨size', hdenotes, herror⟩ := exists_denotes_convert negative (hlimit.mpr h)
  rw [← hdouble] at hdenotes
  refine ⟨signed negative size', hdenotes, ?_⟩
  rw [signed_sub_signed, abs_signed negative hsize]
  rw [abs_le] at hclose herror ⊢
  constructor <;> linarith

/-- A number that is too large for the 32-bit format is written as zero. -/
lemma number_of_limit_le (hn : n.InRange) (hx : n.value? = some x) (h : 2 ^ 128 - 2 ^ 103 ≤ |x|) :
    number n = "0.0" := by
  obtain ⟨negative, size, m, e, hsize, rfl, hdouble, -, hlimit⟩ := exists_toDouble hn hx
  rw [abs_signed negative hsize, ← limit_single, ← not_lt, ← hlimit, not_lt, ← cast_quotient] at h
  have hround := Format.round_of_limit_le Format.single_proper negative (quotient_snd_pos m e) h
  have hconvert : convert single (finite negative m e) = infinite negative := hround
  rw [number, hdouble, hconvert]
  rfl

/-- Zero is close to no large number. -/
lemma not_approximates_zero (h : 2 ^ 128 - 2 ^ 103 ≤ |x|) : ¬ Approximates "0.0" x := by
  rintro ⟨q, hq, herror⟩
  have hzero : Decimal.Denotes "0.0" 0 :=
    ⟨spelling false 0, text_spelling false 0, (value_spelling false 0).trans (by simp [signed])⟩
  rw [hq.unique hzero, zero_sub, abs_neg] at herror
  linarith

/-- Two, three or four numbers make the vector of as many components. -/
lemma exists_ofValue_array {ns : List Number} (hlow : 2 ≤ ns.length) (hhigh : ns.length ≤ 4) :
    ∃ type, (ns.length, type) ∈ [(2, ValueType.vec2), (3, .vec3), (4, .vec4)] ∧
      ofValue (.array (ns.map .number)) = .ok ⟨some type,
        "vec" ++ Nat.repr ns.length ++ "(" ++ ", ".intercalate (ns.map number) ++ ")"⟩ := by
  obtain ⟨type, htype⟩ :
      ∃ type, (ns.length, type) ∈ [(2, ValueType.vec2), (3, .vec3), (4, .vec4)] := by
    generalize ns.length = k at hlow hhigh
    interval_cases k
    · exact ⟨.vec2, by decide⟩
    · exact ⟨.vec3, by decide⟩
    · exact ⟨.vec4, by decide⟩
  exact ⟨type, htype, ofValue_eq_typed_iff.mpr ⟨Denotes.vector htype, by simp⟩⟩

/-- Every number is accepted, on its own as a `float` and among two to four numbers as a component
of the vector of that length.  Its text stands for a number close to it as long as the 32-bit format
has room for it, and for zero otherwise. -/
theorem ofValue_approximates_iff (hn : n.InRange) (hx : n.value? = some x) :
    ofValue (.number n) = .ok ⟨some .float, number n⟩ ∧
      (∀ ns : List Number, n ∈ ns → 2 ≤ ns.length → ns.length ≤ 4 →
        ∃ type, (ns.length, type) ∈ [(2, ValueType.vec2), (3, .vec3), (4, .vec4)] ∧
          ofValue (.array (ns.map .number)) = .ok ⟨some type,
            "vec" ++ Nat.repr ns.length ++ "(" ++ ", ".intercalate (ns.map number) ++ ")"⟩) ∧
      (Approximates (number n) x ↔ |x| < 2 ^ 128 - 2 ^ 103) ∧
      (2 ^ 128 - 2 ^ 103 ≤ |x| → number n = "0.0") := by
  refine ⟨rfl, fun ns _ => exists_ofValue_array, ⟨?_, approximates_number hn hx⟩,
    number_of_limit_le hn hx⟩
  intro hclose
  by_contra hlarge
  rw [number_of_limit_le hn hx (not_lt.mp hlarge)] at hclose
  exact not_approximates_zero (not_lt.mp hlarge) hclose

/-- The least natural number that the 32-bit format does not have. -/
theorem ofValue_approximates_neighbour :
    (Number.natural 16777217).InRange ∧ number (.natural 16777217) = "16777216.0" ∧
      Approximates "16777216.0" 16777217 ∧
      ofValue (.array [.number (.natural 16777217), .number (.natural 0)]) =
        .ok ⟨some .vec2, "vec2(16777216.0, 0.0)"⟩ := by
  have hn : (Number.natural 16777217).InRange := .natural (by norm_num)
  have htext : number (.natural 16777217) = "16777216.0" := by decide +kernel
  have hzero : number (.natural 0) = "0.0" := by decide +kernel
  have hx : (Number.natural 16777217).value? = some 16777217 := by norm_num [Number.value?]
  obtain ⟨-, harray, hclose, -⟩ := ofValue_approximates_iff hn hx
  obtain ⟨type, htype, hvector⟩ :=
    harray [.natural 16777217, .natural 0] List.mem_cons_self (by decide) (by decide)
  obtain rfl : type = .vec2 := by simpa using htype
  refine ⟨hn, htext, ?_, ?_⟩
  · rw [← htext, hclose]
    norm_num
  · have hparts : "vec" ++ Nat.repr 2 ++ "(" ++ ", ".intercalate ["16777216.0", "0.0"] ++ ")" =
        "vec2(16777216.0, 0.0)" := by decide
    rw [← hparts, ← htext, ← hzero]
    exact hvector

/-- A number that is accepted and vanishes. -/
theorem ofValue_vanishing :
    ∃ n : Number, Tree.read "1e39" = ⟨.number n, false⟩ ∧ n.InRange ∧
      ofValue (.number n) = .ok ⟨some .float, "0.0"⟩ ∧
      ∃ x, n.value? = some x ∧ 10 ^ 38 < x ∧ ¬ Approximates "0.0" x := by
  have hvalue : Numeral.value ⟨false, ['1'], [], some (false, ['3', '9'])⟩ =
      .ok (.real (finite false 6617444900424221 77)) := by decide +kernel
  have hrange : (Number.real (finite false 6617444900424221 77)).InRange :=
    .real (.finite false (by norm_num [double]) (by decide) (by decide))
  have hx : (Number.real (finite false 6617444900424221 77)).value? =
      some (6617444900424221 * 2 ^ (77 : ℤ)) := by norm_num [Number.value?, Binary.value?, signed]
  have hlarge : (2 : ℚ) ^ 128 - 2 ^ 103 ≤ |6617444900424221 * 2 ^ (77 : ℤ)| := by
    rw [abs_of_pos (by positivity)]
    norm_num
  refine ⟨_, ?_, hrange, ?_, _, hx, ?_, not_approximates_zero hlarge⟩
  · have hnumeral : Token.numeral false ['1', 'e', '3', '9'] =
        .ok (⟨false, ['1'], [], some (false, ['3', '9'])⟩, []) := rfl
    have htext : "1e39".toList = ['1', 'e', '3', '9'] := by decide
    refine Tree.read_of_next htext (by decide) ((Token.next_of_isDigit (by decide) _).trans ?_)
    simp only [Token.ofNumber, hnumeral, hvalue]
  · rw [ofValue, number_of_limit_le hrange hx hlarge]
  · norm_num

end Number

/-! ### Reading a text again -/

section Reading

variable {mantissa : ℕ} {exponent : ℤ}

/-- The digits of a 32-bit value, with a sign unless all of them are zero, are read as a number that
is written with the same digits. -/
lemma exists_reread (negative : Bool) (hmantissa : mantissa < 2 ^ single.precision)
    (hgreatest : exponent ≤ single.greatest) :
    ∃ n, Tree.read (finite negative mantissa exponent).fixedText = ⟨.number n, false⟩ ∧
      number n = (finite negative mantissa exponent).fixedText := by
  have hcanonical := isCanonical_spelling negative (millionths mantissa exponent)
  have hwhole : (spelling negative (millionths mantissa exponent)).whole.length ≤ 60 := by
    have hbound : millionths mantissa exponent < 10 ^ 60 * million := by
      have hhigh := (millionths_bounds hmantissa hgreatest).2
      rw [div_lt_iff₀ (by norm_num)] at hhigh
      have hlarge : ((2 : ℚ) ^ (128 : ℤ) + 1) * 10 ^ 6 ≤ (10 ^ 60 * million : ℕ) := by
        norm_num [million]
      exact_mod_cast hhigh.trans_le hlarge
    exact (Nat.length_toDigits_le_iff (by decide) (by decide)).mpr
      ((Nat.div_lt_iff_lt_mul (by decide)).mpr hbound)
  obtain ⟨m, e, hvalue, hnear⟩ := Numeral.exists_value_near
    (spelling negative (millionths mantissa exponent)).negative
    (spelling negative (millionths mantissa exponent)).isDigit_whole
    (spelling negative (millionths mantissa exponent)).isDigit_fraction
    hcanonical.fraction_ne_nil hwhole (hcanonical.length_le.trans (by decide))
  rw [magnitude_spelling] at hnear
  refine ⟨_, Tree.read_spelling hcanonical hvalue, ?_⟩
  refine fixedText_convert_of_near hmantissa hgreatest ?_ hnear
  intro hne
  simp [spelling, hne]

/-- The text of a 32-bit value is a number wherever a number may stand in a document, and the
literal for that number is the text itself.  The same holds if the text is rounded to the nearest
64-bit value and then to the nearest 32-bit value. -/
theorem fixedText_rereads {bits : ℕ} {v : ℚ} (hv : (ofBits bits).value? = some v) :
    (∃ n, Tree.read (ofBits bits).fixedText = ⟨.number n, false⟩ ∧
        (∀ rest, Token.EndsNumber rest →
          Token.lex ((ofBits bits).fixedText.toList ++ rest) =
            .scalar (.ok (.number n)) :: Token.lex rest) ∧
        ofValue (.number n) = .ok ⟨some .float, (ofBits bits).fixedText⟩) ∧
      ∀ q, Decimal.Denotes (ofBits bits).fixedText q →
        (convert single (double.nearest q)).fixedText = (ofBits bits).fixedText := by
  have hholds := Format.holds_ofBits hv
  generalize ofBits bits = x at hholds
  cases hholds with
  | @finite negative mantissa exponent hmantissa hleast hgreatest =>
    constructor
    · obtain ⟨n, hread, hnumber⟩ := exists_reread negative hmantissa hgreatest
      refine ⟨n, hread, fun rest hrest => ?_, ?_⟩
      · exact Token.lex_append_of_lex hrest (Tree.lex_eq_of_read hread)
      · rw [ofValue, hnumber]
    · intro q hq
      have hdenotes : Decimal.Denotes (finite negative mantissa exponent).fixedText
          (signed negative (millionths mantissa exponent / 10 ^ 6)) :=
        ⟨spelling negative (millionths mantissa exponent), text_spelling _ _, value_spelling _ _⟩
      rw [hq.unique hdenotes]
      exact fixedText_convert_nearest negative hmantissa hgreatest

/-- A 32-bit value whose text is read as another one: `1.234568` is nearer to its neighbour. -/
theorem fixedText_rereads_neighbour :
    (ofBits 0x3F9E0652).value? = some (5178153 / 2 ^ 22) ∧
      (ofBits 0x3F9E0652).fixedText = "1.234568" ∧
      (ofBits 0x3F9E0653).value? = some (10356307 / 2 ^ 23) ∧
      (∃ n, Tree.read "1.234568" = ⟨.number n, false⟩ ∧
        convert single n.toDouble = ofBits 0x3F9E0653 ∧
        ofValue (.number n) = .ok ⟨some .float, "1.234568"⟩) ∧
      ∀ q, Decimal.Denotes "1.234568" q → (convert single (double.nearest q)).fixedText =
        "1.234568" := by
  have hbits : ofBits 0x3F9E0652 = finite false 10356306 (-23) := by decide +kernel
  have hbits' : ofBits 0x3F9E0653 = finite false 10356307 (-23) := by decide +kernel
  have hv : (ofBits 0x3F9E0652).value? = some (5178153 / 2 ^ 22) := by
    rw [hbits]
    norm_num [Binary.value?, signed]
  have hv' : (ofBits 0x3F9E0653).value? = some (10356307 / 2 ^ 23) := by
    rw [hbits']
    norm_num [Binary.value?, signed]
  have htext : (ofBits 0x3F9E0652).fixedText = "1.234568" := by decide +kernel
  -- the number that is read, and the value it is rounded to
  have hvalue : Numeral.value ⟨false, ['1'], ['2', '3', '4', '5', '6', '8'], none⟩ =
      .ok (.real (finite false 5559999984763539 (-52))) := by decide +kernel
  have hconvert : convert single (finite false 5559999984763539 (-52)) = ofBits 0x3F9E0653 := by
    decide +kernel
  have hread' : Tree.read "1.234568" =
      ⟨.number (.real (finite false 5559999984763539 (-52))), false⟩ := by
    have hnumeral : Token.numeral false ['1', '.', '2', '3', '4', '5', '6', '8'] =
        .ok (⟨false, ['1'], ['2', '3', '4', '5', '6', '8'], none⟩, []) := rfl
    have hchars : "1.234568".toList = ['1', '.', '2', '3', '4', '5', '6', '8'] := by decide
    refine Tree.read_of_next hchars (by decide) ((Token.next_of_isDigit (by decide) _).trans ?_)
    simp only [Token.ofNumber, hnumeral, hvalue]
  obtain ⟨⟨n, hread, -, hliteral⟩, hnearest⟩ := fixedText_rereads hv
  rw [htext] at hread hliteral hnearest
  obtain rfl : n = .real (finite false 5559999984763539 (-52)) := by
    rw [hread'] at hread
    exact (Json.Tree.number.inj (congrArg Reading.tree hread)).symm
  exact ⟨hv, htext, hv', ⟨_, hread, hconvert, hliteral⟩, hnearest⟩

end Reading

end Document.Written

end MaterialGraph
