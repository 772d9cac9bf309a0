import Mathlib.Data.List.Infix
import Mathlib.Tactic.Common
import MaterialGraph.Json.Printer
import MaterialGraph.Proofs.Result

/-!
# Tokens one after the other

What is left of a text behind a token is an end of the text (`suffix_of_next`), so the bound on the
number of tokens is never reached and a text can be cut up token by token (`lex_cons_of_next`).  The
parts of a number are read one behind the other, each from what the part before has left (`Scans`).

Two kinds of token do not show by their first character where they end.  A string in quotes is cut
off right behind its closing quote, whatever it holds (`lex_stringText`).  A number is cut off where
it ends when it stands alone, if it is followed by something that no number goes on with
(`lex_append_of_lex`).
-/

namespace MaterialGraph.Json.Token

/-! ### Parts of numbers -/

/-- A text that no number goes on with. -/
def EndsNumber (rest : List Char) : Prop :=
  ∀ c ∈ rest.head?, isDigit c = false ∧ c ≠ '.' ∧ c ≠ 'e' ∧ c ≠ 'E'

lemma endsNumber_nil : EndsNumber [] := by
  simp [EndsNumber]

lemma endsNumber_cons {c : Char} (h : isDigit c = false ∧ c ≠ '.' ∧ c ≠ 'e' ∧ c ≠ 'E')
    (rest : List Char) : EndsNumber (c :: rest) := by
  simpa [EndsNumber] using h

/-- A part of a number is taken from the front of a text, and what ends the number does not matter
to it. -/
structure Scans {α : Type} (scan : List Char → Except Defect (α × List Char)) : Prop where
  suffix {cs left : List Char} {a : α} : scan cs = .ok (a, left) → left <:+ cs
  append {cs left rest : List Char} {a : α} : scan cs = .ok (a, left) → EndsNumber rest →
    scan (cs ++ rest) = .ok (a, left ++ rest)

/-- What is made of a part of a number does not matter to how it is taken. -/
lemma Scans.map {α β : Type} {scan : List Char → Except Defect (α × List Char)} (f : α → β)
    (h : Scans scan) : Scans fun cs => (scan cs).map fun p => (f p.1, p.2) where
  suffix := by
    intro cs left b hb
    obtain ⟨⟨a, left'⟩, ha, heq⟩ := map_eq_ok_iff.mp hb
    exact (Prod.mk.inj heq).2 ▸ h.suffix ha
  append := by
    intro cs left rest b hb hrest
    obtain ⟨⟨a, left'⟩, ha, heq⟩ := map_eq_ok_iff.mp hb
    obtain ⟨rfl, rfl⟩ := Prod.mk.inj heq
    exact map_eq_ok_iff.mpr ⟨_, h.append ha hrest, rfl⟩

/-- Digits that have to be there take at least one character. -/
lemma suffix_of_someDigits {cs ds left : List Char} (h : someDigits cs = .ok (ds, left)) :
    left <:+ cs.tail := by
  cases cs with
  | nil => simp [someDigits] at h
  | cons c cs =>
    by_cases hc : isDigit c = true
    · have hleft : cs.dropWhile isDigit = left := by simp_all [someDigits]
      exact hleft ▸ List.dropWhile_suffix _
    · simp [someDigits, hc] at h

/-- Digits that have to be there are taken up to the first character that is none. -/
lemma scans_someDigits : Scans someDigits where
  suffix h := (suffix_of_someDigits h).trans (List.tail_suffix _)
  append := by
    intro cs left rest ds h hrest
    have hstop : rest.takeWhile isDigit = [] ∧ rest.dropWhile isDigit = rest := by
      cases rest with
      | nil => simp
      | cons c rest => simp [(hrest c rfl).1]
    have htake : (cs ++ rest).takeWhile isDigit = cs.takeWhile isDigit := by
      rw [List.takeWhile_append, hstop.1, List.append_nil]
      split_ifs with hlength
      · exact ((List.takeWhile_prefix _).eq_of_length hlength).symm
      · rfl
    have hdrop : (cs ++ rest).dropWhile isDigit = cs.dropWhile isDigit ++ rest := by
      rw [List.dropWhile_append, hstop.2]
      split_ifs with hempty
      · rw [List.isEmpty_iff.mp hempty, List.nil_append]
      · rfl
    unfold someDigits at h ⊢
    rw [htake, hdrop]
    cases hds : cs.takeWhile isDigit with
    | nil => simp [hds] at h
    | cons d ds => simp_all

/-- The digits in front of the point take at least one character. -/
lemma suffix_of_wholeDigits {cs ds left : List Char} (h : wholeDigits cs = .ok (ds, left)) :
    left <:+ cs.tail := by
  unfold wholeDigits at h
  split at h
  · split at h
    · split at h
      · simp at h
      · simp_all
    · simp_all
  · exact suffix_of_someDigits h

/-- Only a zero in front is treated by itself. -/
lemma wholeDigits_of_ne {c : Char} (hc : c ≠ '0') (cs : List Char) :
    wholeDigits (c :: cs) = someDigits (c :: cs) := by
  unfold wholeDigits
  split
  · rename_i heq
    exact absurd (List.cons.inj heq).1 hc
  · rfl

/-- The digits in front of the point are a part of a number. -/
lemma scans_wholeDigits : Scans wholeDigits where
  suffix h := (suffix_of_wholeDigits h).trans (List.tail_suffix _)
  append := by
    intro cs left rest ds h hrest
    cases cs with
    | nil => simp [wholeDigits, someDigits] at h
    | cons c cs =>
      by_cases hc : c = '0'
      · subst hc
        cases cs with
        | nil =>
          obtain ⟨rfl, rfl⟩ := Prod.mk.inj (Except.ok.inj h)
          cases rest with
          | nil => rfl
          | cons d rest => simp [wholeDigits, (hrest d rfl).1]
        | cons d cs =>
          cases hd : isDigit d with
          | true => simp [wholeDigits, hd] at h
          | false =>
            obtain ⟨rfl, rfl⟩ : ['0'] = ds ∧ d :: cs = left := by simpa [wholeDigits, hd] using h
            simp [wholeDigits, hd]
      · rw [wholeDigits_of_ne hc] at h
        rw [List.cons_append, wholeDigits_of_ne hc]
        exact scans_someDigits.append h hrest

/-- A point with its digits is a part of a number, and so is nothing in its place. -/
lemma scans_fractionDigits : Scans fractionDigits where
  suffix := by
    intro cs left ds h
    unfold fractionDigits at h
    split at h
    · exact (scans_someDigits.suffix h).trans (List.suffix_cons _ _)
    · simp_all
  append := by
    intro cs left rest ds h hrest
    unfold fractionDigits at h
    split at h
    · exact scans_someDigits.append h hrest
    · rename_i hpoint
      obtain ⟨rfl, rfl⟩ := Prod.mk.inj (Except.ok.inj h)
      unfold fractionDigits
      split
      · rename_i heq
        cases cs with
        | nil => exact absurd rfl (hrest '.' (by simp_all)).2.1
        | cons c cs => exact absurd (by rw [(List.cons.inj heq).1]) (hpoint cs)
      · rfl

/-- The digits of an exponent, given its sign. -/
lemma scans_digitsOf (sign : Bool) :
    Scans fun cs => (someDigits cs).map fun p => ((sign, p.1), p.2) :=
  scans_someDigits.map (sign, ·)

/-- The digits of an exponent with their sign are a part of a number. -/
lemma scans_signedDigits : Scans signedDigits where
  suffix := by
    intro cs left x h
    unfold signedDigits at h
    split at h
    · exact ((scans_digitsOf true).suffix h).trans (List.suffix_cons _ _)
    · exact ((scans_digitsOf false).suffix h).trans (List.suffix_cons _ _)
    · exact (scans_digitsOf false).suffix h
  append := by
    intro cs left rest x h hrest
    have hcons : cs ≠ [] := by
      rintro rfl
      simp [signedDigits, someDigits, Except.map] at h
    obtain ⟨c, cs, rfl⟩ := List.exists_cons_of_ne_nil hcons
    unfold signedDigits at h
    split at h
    · rename_i heq
      obtain ⟨rfl, rfl⟩ := List.cons.inj heq
      exact (scans_digitsOf true).append h hrest
    · rename_i heq
      obtain ⟨rfl, rfl⟩ := List.cons.inj heq
      exact (scans_digitsOf false).append h hrest
    · rename_i hminus hplus
      have hunsigned : signedDigits (c :: (cs ++ rest)) =
          (someDigits (c :: (cs ++ rest))).map fun p => ((false, p.1), p.2) := by
        unfold signedDigits
        split
        · rename_i heq
          exact absurd (by rw [(List.cons.inj heq).1]) (hminus cs)
        · rename_i heq
          exact absurd (by rw [(List.cons.inj heq).1]) (hplus cs)
        · rfl
      rw [List.cons_append, hunsigned]
      exact (scans_digitsOf false).append h hrest

/-- An exponent is a part of a number, and so is nothing in its place. -/
lemma scans_exponentDigits : Scans exponentDigits where
  suffix := by
    intro cs left x h
    unfold exponentDigits at h
    split at h
    · exact ((scans_signedDigits.map some).suffix h).trans (List.suffix_cons _ _)
    · exact ((scans_signedDigits.map some).suffix h).trans (List.suffix_cons _ _)
    · simp_all
  append := by
    intro cs left rest x h hrest
    unfold exponentDigits at h
    split at h
    · exact (scans_signedDigits.map some).append h hrest
    · exact (scans_signedDigits.map some).append h hrest
    · rename_i hlower hupper
      obtain ⟨rfl, rfl⟩ := Prod.mk.inj (Except.ok.inj h)
      unfold exponentDigits
      split
      · rename_i heq
        cases cs with
        | nil => exact absurd rfl (hrest 'e' (by simp_all)).2.2.1
        | cons c cs => exact absurd (by rw [(List.cons.inj heq).1]) (hlower cs)
      · rename_i heq
        cases cs with
        | nil => exact absurd rfl (hrest 'E' (by simp_all)).2.2.2
        | cons c cs => exact absurd (by rw [(List.cons.inj heq).1]) (hupper cs)
      · rfl

/-- The parts of a number that is read, one behind the other. -/
lemma exists_parts_of_numeral {negative : Bool} {cs left : List Char} {n : Numeral}
    (h : numeral negative cs = .ok (n, left)) :
    ∃ cs₁ cs₂, wholeDigits cs = .ok (n.whole, cs₁) ∧ fractionDigits cs₁ = .ok (n.fraction, cs₂) ∧
      exponentDigits cs₂ = .ok (n.exponent, left) ∧ n.negative = negative := by
  unfold numeral at h
  split at h
  · simp at h
  · rename_i hwhole
    split at h
    · simp at h
    · rename_i hfraction
      split at h
      · simp at h
      · rename_i hexponent
        obtain ⟨rfl, rfl⟩ := Prod.mk.inj (Except.ok.inj h)
        exact ⟨_, _, hwhole, hfraction, hexponent, rfl⟩

/-- A number takes at least one character behind its sign. -/
lemma suffix_of_numeral {negative : Bool} {cs left : List Char} {n : Numeral}
    (h : numeral negative cs = .ok (n, left)) : left <:+ cs.tail := by
  obtain ⟨cs₁, cs₂, hwhole, hfraction, hexponent, -⟩ := exists_parts_of_numeral h
  exact ((scans_exponentDigits.suffix hexponent).trans
    (scans_fractionDigits.suffix hfraction)).trans (suffix_of_wholeDigits hwhole)

/-- A number is the same in front of what no number goes on with. -/
lemma numeral_append {negative : Bool} {cs left rest : List Char} {n : Numeral}
    (h : numeral negative cs = .ok (n, left)) (hrest : EndsNumber rest) :
    numeral negative (cs ++ rest) = .ok (n, left ++ rest) := by
  obtain ⟨cs₁, cs₂, hwhole, hfraction, hexponent, rfl⟩ := exists_parts_of_numeral h
  simp [numeral, scans_wholeDigits.append hwhole hrest, scans_fractionDigits.append hfraction hrest,
    scans_exponentDigits.append hexponent hrest]

/-! ### What is left behind a token -/

/-- A number takes at least one character. -/
lemma suffix_of_ofNumber {negative : Bool} {cs left : List Char} {t : Token}
    (h : ofNumber negative cs = (t, some left)) : left <:+ cs.tail := by
  unfold ofNumber at h
  split at h
  · simp at h
  · rename_i hnumeral
    split at h
    all_goals
      obtain rfl := Option.some.inj (Prod.mk.inj h).2
      exact suffix_of_numeral hnumeral

/-- A string that is closed leaves an end of the text. -/
lemma suffix_of_pieces {cs rest : List Char} (h : (pieces cs).2 = .closed rest) : rest <:+ cs := by
  fun_induction pieces cs with
  | case2 cs =>
    obtain rfl := Ending.closed.inj h
    exact List.suffix_cons _ _
  | case4 h₁ h₂ h₃ h₄ left n hn _ ih =>
    exact (ih h).trans ⟨['\\', 'u', h₁, h₂, h₃, h₄], rfl⟩
  | case7 e es he d hd _ ih =>
    exact (ih h).trans ⟨['\\', e], rfl⟩
  | case10 c cs hquote hslash hcontrol ih =>
    exact (ih h).trans (List.suffix_cons _ _)
  | case1 | case3 | case5 | case6 | case8 | case9 => simp at h

/-- What is left behind the letters of a word is an end of the text. -/
lemma suffix_of_word {letters cs rest : List Char} (h : word letters cs = .ok rest) :
    rest <:+ cs := by
  fun_induction word letters cs with
  | case1 cs => simp_all
  | case2 => simp at h
  | case3 w ws cs ih => exact (ih h).trans (List.suffix_cons _ _)
  | case4 => simp at h

lemma suffix_of_ofWord {letters : String} {meaning : Scalar} {cs rest : List Char} {t : Token}
    (h : ofWord letters meaning cs = (t, some rest)) : rest <:+ cs := by
  unfold ofWord at h
  split at h
  · rename_i hword
    obtain rfl := Option.some.inj (Prod.mk.inj h).2
    exact suffix_of_word hword
  · simp at h

/-- What is left behind a string is an end of the text. -/
lemma suffix_of_ofString {cs rest : List Char} {t : Token} (h : ofString cs = (t, some rest)) :
    rest <:+ cs := by
  unfold ofString at h
  dsimp only at h
  split at h
  · rename_i hclosed _
    obtain rfl := Option.some.inj (Prod.mk.inj h).2
    exact suffix_of_pieces hclosed
  · rename_i hclosed _
    obtain rfl := Option.some.inj (Prod.mk.inj h).2
    exact suffix_of_pieces hclosed
  · simp at h
  · simp at h

/-- A token takes its first character, and leaves an end of what follows it. -/
lemma suffix_of_next {c : Char} {cs rest : List Char} {t : Token}
    (h : next c cs = (t, some rest)) : rest <:+ cs := by
  have hsign : ∀ {token : Token}, (token, some cs) = (t, some rest) → rest <:+ cs := by
    intro token h
    obtain rfl := Option.some.inj (Prod.mk.inj h).2
    exact List.suffix_refl _
  unfold next at h
  rcases ite_eq_iff.mp h with ⟨-, h⟩ | ⟨-, h⟩
  · exact suffix_of_ofString h
  rcases ite_eq_iff.mp h with ⟨-, h⟩ | ⟨-, h⟩
  · exact (suffix_of_ofNumber h).trans (List.tail_suffix _)
  rcases ite_eq_iff.mp h with ⟨-, h⟩ | ⟨-, h⟩
  · exact suffix_of_ofNumber h
  iterate 3
    rcases ite_eq_iff.mp h with ⟨-, h⟩ | ⟨-, h⟩
    · exact suffix_of_ofWord h
  iterate 6
    rcases ite_eq_iff.mp h with ⟨-, h⟩ | ⟨-, h⟩
    · exact hsign h
  simp at h

/-! ### Cutting up a text -/

/-- As many steps as there are characters are enough. -/
lemma lexUpTo_eq_lexUpTo {m n : Nat} {cs : List Char} (hm : cs.length ≤ m) (hn : cs.length ≤ n) :
    lexUpTo m cs = lexUpTo n cs := by
  induction m generalizing n cs with
  | zero =>
    obtain rfl := List.length_eq_zero_iff.mp (Nat.le_zero.mp hm)
    cases n <;> rfl
  | succ m ih =>
    cases cs with
    | nil => cases n <;> rfl
    | cons c cs =>
      obtain ⟨n, rfl⟩ : ∃ k, n = k + 1 := ⟨n - 1, by simp at hn; omega⟩
      simp only [List.length_cons, Nat.add_le_add_iff_right] at hm hn
      unfold lexUpTo
      split_ifs
      · exact ih hm hn
      · cases hnext : next c cs with
        | mk t left =>
          cases left with
          | none => rfl
          | some rest =>
            have hrest := (suffix_of_next hnext).length_le
            have htail := ih (hrest.trans hm) (hrest.trans hn)
            simp only [htail]

lemma lex_nil : lex [] = [] := rfl

/-- A space in front of a text does not matter. -/
lemma lex_cons_of_isSpace {c : Char} {cs : List Char} (h : isSpace c = true) :
    lex (c :: cs) = lex cs := by
  simp [lex, lexUpTo, h]

/-- The tokens of a text are its first token and those of what that token leaves. -/
lemma lex_cons_of_next {c : Char} {cs rest : List Char} {t : Token} (hspace : isSpace c = false)
    (h : next c cs = (t, some rest)) : lex (c :: cs) = t :: lex rest := by
  have hrest := (suffix_of_next h).length_le
  have hlex : lexUpTo cs.length rest = lex rest := lexUpTo_eq_lexUpTo hrest le_rfl
  rw [← hlex]
  simp [lex, lexUpTo, hspace, h]

lemma lex_openArray (cs : List Char) : lex ('[' :: cs) = openArray :: lex cs :=
  lex_cons_of_next (by decide) rfl

lemma lex_closeArray (cs : List Char) : lex (']' :: cs) = closeArray :: lex cs :=
  lex_cons_of_next (by decide) rfl

lemma lex_openObject (cs : List Char) : lex ('\x7b' :: cs) = openObject :: lex cs :=
  lex_cons_of_next (by decide) rfl

lemma lex_closeObject (cs : List Char) : lex ('\x7d' :: cs) = closeObject :: lex cs :=
  lex_cons_of_next (by decide) rfl

lemma lex_comma (cs : List Char) : lex (',' :: cs) = comma :: lex cs :=
  lex_cons_of_next (by decide) rfl

lemma lex_colon (cs : List Char) : lex (':' :: cs) = colon :: lex cs :=
  lex_cons_of_next (by decide) rfl

/-- Nothing follows a token that cannot be passed over. -/
lemma lex_cons_of_next_none {c : Char} {cs : List Char} {t : Token} (hspace : isSpace c = false)
    (h : next c cs = (t, none)) : lex (c :: cs) = [t] := by
  simp [lex, lexUpTo, hspace, h]

/-- A text without tokens can be put in front of another one. -/
lemma lex_append_of_lex_eq_nil {cs : List Char} (h : lex cs = []) (rest : List Char) :
    lex (cs ++ rest) = lex rest := by
  induction cs with
  | nil => rfl
  | cons c cs ih =>
    cases hspace : isSpace c with
    | true =>
      rw [lex_cons_of_isSpace hspace] at h
      rw [List.cons_append, lex_cons_of_isSpace hspace, ih h]
    | false =>
      cases hnext : next c cs with
      | mk t left =>
        cases left with
        | none => simp [lex_cons_of_next_none hspace hnext] at h
        | some left => simp [lex_cons_of_next hspace hnext] at h

/-! ### Strings -/

/-- The hexadecimal escape of a control character stands for it. -/
lemma hexUnit?_hexChar :
    ∀ n < 0x20, hexUnit? '0' '0' (hexChar (n / 16)) (hexChar (n % 16)) = some n := by
  decide

/-- A written character is read as one part, which stands for that character. -/
lemma exists_piece_of_escapedChar (c : Char) :
    ∃ p, (∀ cs, pieces (escapedChar c ++ cs) = withPiece p (pieces cs)) ∧
      ∀ ending ps, characters ending (p :: ps) = (characters ending ps).map (c :: ·) := by
  have hchar : ∀ ending ps, characters ending (.char c :: ps) =
      (characters ending ps).map (c :: ·) := fun _ _ => rfl
  unfold escapedChar
  split_ifs with hquote hslash hback hform hline hreturn htab hcontrol
  iterate 7
    subst c
    refine ⟨.char _, fun cs => ?_, hchar⟩
    rw [pieces.eq_def]
    rfl
  · -- a control character is read as a code unit, which is no half of a pair
    refine ⟨.unit c.toNat, fun cs => ?_, fun ending ps => ?_⟩
    · have hunit := hexUnit?_hexChar c.toNat hcontrol
      simp only [List.cons_append, List.nil_append]
      rw [pieces.eq_def]
      simp [hunit]
    · have hleading : isLeading c.toNat = false := by simp [isLeading]; omega
      have htrailing : isTrailing c.toNat = false := by simp [isTrailing]; omega
      rw [characters.eq_def]
      simp [hleading, htrailing, Char.ofNat_toNat]
  · refine ⟨.char c, fun cs => ?_, hchar⟩
    rw [List.singleton_append]
    rw [pieces.eq_def]
    simp [hquote, hslash, hcontrol]

/-- The parts of a written string stand for its characters, and the closing quote ends them. -/
lemma exists_pieces_of_flatMap_escapedChar (s rest : List Char) :
    ∃ ps, pieces (s.flatMap escapedChar ++ '"' :: rest) = (ps, .closed rest) ∧
      characters (.closed rest) ps = .ok s := by
  induction s with
  | nil =>
    refine ⟨[], ?_, rfl⟩
    rw [pieces.eq_def]
    rfl
  | cons c s ih =>
    obtain ⟨ps, hpieces, hcharacters⟩ := ih
    obtain ⟨p, hp, hc⟩ := exists_piece_of_escapedChar c
    refine ⟨p :: ps, ?_, ?_⟩
    · rw [List.flatMap_cons, List.append_assoc, hp, hpieces]
      rfl
    · rw [hc, hcharacters]
      rfl

/-- A string in quotes is one token, whatever follows it. -/
lemma lex_stringText (s : String) (rest : List Char) :
    lex ((stringText s).toList ++ rest) = string (.ok s) :: lex rest := by
  have htext : (stringText s).toList ++ rest =
      '"' :: (s.toList.flatMap escapedChar ++ '"' :: rest) := by
    simp [stringText]
  obtain ⟨ps, hpieces, hcharacters⟩ := exists_pieces_of_flatMap_escapedChar s.toList rest
  rw [htext]
  refine lex_cons_of_next (by decide) ?_
  simp [next, ofString, hpieces, hcharacters]

/-! ### Numbers -/

section Number

variable {cs rest : List Char}

/-- A number token stays one when something follows that no number goes on with. -/
lemma ofNumber_append {negative : Bool} {n : Number} {left : Option (List Char)}
    (hrest : EndsNumber rest) (h : ofNumber negative cs = (scalar (.ok (.number n)), left)) :
    ∃ blanks, left = some blanks ∧
      ofNumber negative (cs ++ rest) = (scalar (.ok (.number n)), some (blanks ++ rest)) := by
  unfold ofNumber at h
  split at h
  · simp at h
  · rename_i numeral blanks hnumeral
    split at h
    · rename_i v hvalue
      have hnumeral' := numeral_append hnumeral hrest
      refine ⟨blanks, by simp_all, ?_⟩
      simp_all [ofNumber]
    · simp at h

/-- A token that is a number starts with a sign or a digit. -/
lemma exists_ofNumber_of_next {c : Char} {n : Number} {left : Option (List Char)}
    (h : next c cs = (scalar (.ok (.number n)), left)) :
    ∃ negative digits, ∀ rest, next c (cs ++ rest) = ofNumber negative (digits ++ rest) := by
  by_cases hquote : c = '"'
  · rw [next, if_pos hquote, ofString] at h
    split at h <;> simp at h
  by_cases hminus : c = '-'
  · refine ⟨true, cs, fun rest => ?_⟩
    rw [next, if_neg hquote, if_pos hminus]
  by_cases hdigit : isDigit c = true
  · refine ⟨false, c :: cs, fun rest => ?_⟩
    rw [next, if_neg hquote, if_neg hminus, if_pos hdigit]
    rfl
  rw [next, if_neg hquote, if_neg hminus, if_neg hdigit] at h
  iterate 3
    rcases ite_eq_iff.mp h with ⟨-, h⟩ | ⟨-, h⟩
    · unfold ofWord at h
      split at h <;> simp at h
  iterate 6
    rcases ite_eq_iff.mp h with ⟨-, h⟩ | ⟨-, h⟩
    · simp at h
  simp at h

/-- The tokens of a text that is one number, when something follows that no number goes on with. -/
lemma lex_append_of_lex {n : Number} (hrest : EndsNumber rest)
    (h : lex cs = [scalar (.ok (.number n))]) :
    lex (cs ++ rest) = scalar (.ok (.number n)) :: lex rest := by
  induction cs with
  | nil => simp [lex_nil] at h
  | cons c cs ih =>
    cases hspace : isSpace c with
    | true =>
      rw [lex_cons_of_isSpace hspace] at h
      rw [List.cons_append, lex_cons_of_isSpace hspace]
      exact ih h
    | false =>
      cases hnext : next c cs with
      | mk t left =>
        -- the first token is the number, and what it leaves has no tokens
        have ht : t = scalar (.ok (.number n)) := by
          cases left with
          | none => simpa [lex_cons_of_next_none hspace hnext] using h
          | some left => exact (List.cons.inj (lex_cons_of_next hspace hnext ▸ h)).1
        subst ht
        obtain ⟨negative, digits, hdigits⟩ := exists_ofNumber_of_next hnext
        have hnumber := hdigits []
        rw [List.append_nil, List.append_nil, hnext] at hnumber
        obtain ⟨blanks, rfl, happend⟩ := ofNumber_append hrest hnumber.symm
        have hblanks : lex blanks = [] := (List.cons.inj (lex_cons_of_next hspace hnext ▸ h)).2
        rw [← hdigits] at happend
        rw [List.cons_append, lex_cons_of_next hspace happend, lex_append_of_lex_eq_nil hblanks]

end Number

end MaterialGraph.Json.Token
