import Mathlib.Data.List.Induction
import MaterialGraph.Formula.Basic

/-!
# Tokens of the shading language

The texts that nodes exchange are expressions of the shading language.  This module cuts such a
text into tokens.  A token is as long as it can be, white space only separates, and what is neither
a token nor white space makes the whole text unreadable.

The cutting is a single pass from left to right that remembers what it has seen of the current
token, a `Lexeme`.  The lemmas say when the tokens of a text are those of its parts.
-/

namespace MaterialGraph.Text

variable {c : Char}

/-- The code points of the characters of words. -/
lemma isWordChar_iff : isWordChar c = true ↔
    (65 ≤ c.toNat ∧ c.toNat ≤ 90) ∨ (97 ≤ c.toNat ∧ c.toNat ≤ 122) ∨
      (48 ≤ c.toNat ∧ c.toNat ≤ 57) ∨ c.toNat = 95 ∨ c.toNat = 46 := by
  have hcode (d : Char) : c = d ↔ c.toNat = d.toNat := ⟨congrArg _, fun h => Char.toNat_inj.mp h⟩
  have halpha : c.isAlpha =
      (decide (c.val ≥ 'A'.val ∧ c.val ≤ 'Z'.val) || (c.val ≥ 'a'.val && c.val ≤ 'z'.val)) := rfl
  simp only [isWordChar, Char.isAlphanum, halpha, Char.isDigit, Bool.or_eq_true, Bool.and_eq_true,
    decide_eq_true_eq, UInt32.le_iff_toNat_le, ge_iff_le, beq_iff_eq, hcode, or_assoc]
  rfl

lemma isWordChar_of_isBlank (h : isBlank c = true) : isWordChar c = false := by
  rw [← Bool.not_eq_true, isWordChar_iff]
  simp only [isBlank, blankRanges, List.any_cons, List.any_nil, Bool.or_false,
    Bool.or_eq_true, Bool.and_eq_true, decide_eq_true_eq] at h
  omega

end MaterialGraph.Text

namespace MaterialGraph.Expression

/-- A token of an expression. -/
inductive Token where
  | name (text : String)
  | number (text : String)
  | operator (operator : Operator)
  | openParen
  | closeParen
  | openBracket
  | closeBracket
  | comma
  | question
  | colon
  | dot
  deriving DecidableEq

/-! ### Numbers -/

namespace Numeral

/-- A sequence of decimal digits that is not empty. -/
def isDigits (cs : List Char) : Bool :=
  !cs.isEmpty && cs.all Char.isDigit

/-- A digit to the base sixteen. -/
def isHexDigit (c : Char) : Bool :=
  c.isDigit || ('a' ≤ c && c ≤ 'f') || ('A' ≤ c && c ≤ 'F')

/-- A whole number without a suffix: hexadecimal, octal or decimal. -/
def isWhole : List Char → Bool
  | '0' :: 'x' :: digits | '0' :: 'X' :: digits => !digits.isEmpty && digits.all isHexDigit
  | '0' :: digits => digits.all fun c => '0' ≤ c && c ≤ '7'
  | digits => isDigits digits

/-- Digits with a point before, after or between them. -/
def isFraction (cs : List Char) : Bool :=
  let (whole, rest) := cs.span Char.isDigit
  match rest with
  | '.' :: decimals => (isDigits whole || isDigits decimals) && decimals.all Char.isDigit
  | _ => false

/-- What can end a number that is not whole; it may be nothing. -/
def isSuffix (cs : List Char) : Bool :=
  cs ∈ [[], ['f'], ['F'], ['l', 'f'], ['L', 'F']]

/-- An exponent, with the suffix that follows it. -/
def isExponent : List Char → Bool
  | letter :: rest =>
    let unsigned := match rest with
      | '+' :: digits | '-' :: digits => digits
      | digits => digits
    let (digits, suffix) := unsigned.span Char.isDigit
    (letter == 'e' || letter == 'E') && isDigits digits && isSuffix suffix
  | [] => false

/-- A number with a point or an exponent. -/
def isFloating (cs : List Char) : Bool :=
  let (mantissa, rest) := cs.span fun c => c.isDigit || c == '.'
  (isFraction mantissa && (isSuffix rest || isExponent rest))
    || (isDigits mantissa && isExponent rest)

/-- A number of the shading language. -/
def isNumeral (cs : List Char) : Bool :=
  isWhole cs || (cs.getLast?.any (fun c => c == 'u' || c == 'U') && isWhole cs.dropLast)
    || isFloating cs

/-- Whether a sign right after the beginning of a number belongs to the number. -/
def takesSign (cs : List Char) : Bool :=
  cs.getLast?.any (fun c => c == 'e' || c == 'E')
    && !(['0', 'x'].isPrefixOf cs || ['0', 'X'].isPrefixOf cs)

end Numeral

/-! ### Cutting a text into tokens -/

/-- What has been seen of the current token. -/
inductive Lexeme where
  /-- White space, or the beginning of the text. -/
  | blank
  /-- A token that no character can extend. -/
  | whole (token : Token)
  | name (chars : List Char)
  | number (chars : List Char)
  | dot
  | minus
  /-- The first half of the sign for equality, no token by itself. -/
  | assign
  /-- Two minus signs without a space; the language reads them as one sign, which no expression
  here has. -/
  | decrement

namespace Lexeme

/-- The white space of the language. -/
def isGap (c : Char) : Bool :=
  c == ' ' || (0x09 ≤ c.toNat && c.toNat ≤ 0x0D)

/-- The characters that can go on a name. -/
def isNameChar (c : Char) : Bool :=
  c.isAlphanum || c == '_'

/-- What a character begins. -/
def start (c : Char) : Option Lexeme :=
  if c.isAlpha || c == '_' then some (name [c])
  else if c.isDigit then some (number [c])
  else if isGap c then some blank
  else match c with
    | '.' => some dot
    | '-' => some minus
    | '=' => some assign
    | '+' => some (whole (.operator .add))
    | '*' => some (whole (.operator .multiply))
    | '/' => some (whole (.operator .divide))
    | '(' => some (whole .openParen)
    | ')' => some (whole .closeParen)
    | '[' => some (whole .openBracket)
    | ']' => some (whole .closeBracket)
    | ',' => some (whole .comma)
    | '?' => some (whole .question)
    | ':' => some (whole .colon)
    | _ => none

/-- What a character extends a lexeme to, if it does. -/
def extend : Lexeme → Char → Option Lexeme
  | name cs, c => if isNameChar c then some (name (cs ++ [c])) else none
  | number cs, c =>
    if Text.isWordChar c || ((c == '+' || c == '-') && Numeral.takesSign cs) then
      some (number (cs ++ [c]))
    else none
  | dot, c => if c.isDigit then some (number ['.', c]) else none
  | minus, c => if c == '-' then some decrement else none
  | assign, c => if c == '=' then some (whole (.operator .equal)) else none
  | _, _ => none

/-- The tokens that a finished lexeme stands for: one, or none for white space. -/
def tokens? : Lexeme → Option (List Token)
  | blank => some []
  | whole t => some [t]
  | name cs => some [.name (String.ofList cs)]
  | number cs => if Numeral.isNumeral cs then some [.number (String.ofList cs)] else none
  | dot => some [.dot]
  | minus => some [.operator .subtract]
  | assign | decrement => none

end Lexeme

/-- The tokens of a text, when the lexeme before it may still be extended. -/
def tokensFrom : Lexeme → List Char → Option (List Token)
  | l, [] => l.tokens?
  | l, c :: cs =>
    match l.extend c with
    | some longer => tokensFrom longer cs
    | none => do
      let done ← l.tokens?
      let next ← Lexeme.start c
      let rest ← tokensFrom next cs
      return done ++ rest

/-- The tokens of a text. -/
def tokens (s : String) : Option (List Token) :=
  tokensFrom .blank s.toList

/-! ### Texts put together -/

section Composition

variable {l : Lexeme} {c : Char} {a b cs : List Char} {ts us : List Token}

/-- A character that makes the lexeme longer. -/
lemma tokensFrom_cons_of_extend {longer : Lexeme} (h : l.extend c = some longer) :
    tokensFrom l (c :: cs) = tokensFrom longer cs := by
  simp only [tokensFrom, h]

/-- A character that ends the lexeme: the tokens of the lexeme are followed by those from the
character on. -/
lemma tokensFrom_cons_eq_some_iff (h : l.extend c = none) :
    tokensFrom l (c :: cs) = some ts ↔ ∃ done next rest, l.tokens? = some done ∧
      Lexeme.start c = some next ∧ tokensFrom next cs = some rest ∧ ts = done ++ rest := by
  simp only [tokensFrom, h, Option.bind_eq_bind, Option.bind_eq_some_iff, Option.pure_def,
    Option.some.injEq]
  constructor
  · rintro ⟨done, hdone, next, hnext, rest, hrest, rfl⟩
    exact ⟨done, next, rest, hdone, hnext, hrest, rfl⟩
  · rintro ⟨done, next, rest, hdone, hnext, hrest, rfl⟩
    exact ⟨done, hdone, next, hnext, rest, hrest, rfl⟩

/-- A character that ends every token before it. -/
def Lexeme.Breaks (c : Char) : Prop :=
  ∀ l : Lexeme, l.extend c = none

/-- At a character that ends every token the text can be cut. -/
lemma tokensFrom_append_eq_some_iff (hc : Lexeme.Breaks c) :
    tokensFrom l (a ++ c :: b) = some ts ↔ ∃ us vs, tokensFrom l a = some us ∧
      tokensFrom .blank (c :: b) = some vs ∧ ts = us ++ vs := by
  have hblank {vs : List Token} : tokensFrom .blank (c :: b) = some vs ↔
      ∃ next, Lexeme.start c = some next ∧ tokensFrom next b = some vs := by
    simp [tokensFrom_cons_eq_some_iff (hc .blank), Lexeme.tokens?]
  induction a generalizing l ts with
  | nil =>
    rw [List.nil_append, tokensFrom_cons_eq_some_iff (hc l)]
    simp only [hblank]
    constructor
    · rintro ⟨done, next, rest, hdone, hnext, hrest, rfl⟩
      exact ⟨done, rest, hdone, ⟨next, hnext, hrest⟩, rfl⟩
    · rintro ⟨done, rest, hdone, ⟨next, hnext, hrest⟩, rfl⟩
      exact ⟨done, next, rest, hdone, hnext, hrest, rfl⟩
  | cons x a ih =>
    cases hx : l.extend x with
    | some longer =>
      rw [List.cons_append, tokensFrom_cons_of_extend hx, tokensFrom_cons_of_extend hx]
      exact ih
    | none =>
      simp only [List.cons_append, tokensFrom_cons_eq_some_iff hx, ih]
      constructor
      · rintro ⟨done, next, _, hdone, hnext, ⟨us, vs, hus, hvs, rfl⟩, rfl⟩
        exact ⟨done ++ us, vs, ⟨done, next, us, hdone, hnext, hus, rfl⟩, hvs,
          (List.append_assoc ..).symm⟩
      · rintro ⟨_, vs, ⟨done, next, us, hdone, hnext, hus, rfl⟩, hvs, rfl⟩
        exact ⟨done, next, us ++ vs, hdone, hnext, ⟨us, vs, hus, hvs, rfl⟩, List.append_assoc ..⟩

/-- A point ends every token but a number. -/
lemma tokensFrom_append_dot (ha : tokensFrom l a = some ts)
    (hlast : ∀ s, ts.getLast? ≠ some (.number s)) (hb : tokensFrom .dot b = some us) :
    tokensFrom l (a ++ '.' :: b) = some (ts ++ us) := by
  induction a generalizing l ts with
  | nil =>
    have hextend : l.extend '.' = none := by
      cases l with
      | number cs =>
        simp only [tokensFrom, Lexeme.tokens?, Option.ite_none_right_eq_some,
          Option.some.injEq] at ha
        exact absurd (by rw [← ha.2]; rfl) (hlast (String.ofList cs))
      | _ => rfl
    exact (tokensFrom_cons_eq_some_iff hextend).mpr ⟨ts, .dot, us, ha, rfl, hb, rfl⟩
  | cons x a ih =>
    cases hx : l.extend x with
    | some longer =>
      rw [tokensFrom_cons_of_extend hx] at ha
      rw [List.cons_append, tokensFrom_cons_of_extend hx, ih ha hlast]
    | none =>
      obtain ⟨done, next, rest, hdone, hnext, hrest, rfl⟩ :=
        (tokensFrom_cons_eq_some_iff hx).mp ha
      have hrestLast : ∀ s, rest.getLast? ≠ some (.number s) := fun s hs =>
        hlast s (by rw [List.getLast?_append, hs, Option.some_or])
      rw [List.append_assoc]
      exact (tokensFrom_cons_eq_some_iff hx).mpr
        ⟨done, next, rest ++ us, hdone, hnext, ih hrest hrestLast, rfl⟩

end Composition

/-! ### Separators, white space and names -/

section Separation

variable {l : Lexeme} {c : Char} {a b cs : List Char} {ts us : List Token}

/-- A character that belongs to no word ends every lexeme, except for the three signs that can be
inside of one. -/
lemma Lexeme.breaks_of_isWordChar_eq_false (hword : Text.isWordChar c = false)
    (hsign : c ≠ '+' ∧ c ≠ '-' ∧ c ≠ '=') : Breaks c := by
  have hname : isNameChar c = false := by
    simp_all [isNameChar, Text.isWordChar]
  have hdigit : c.isDigit = false := by
    simp_all [Text.isWordChar, Char.isAlphanum]
  intro l
  cases l <;> simp [extend, hname, hword, hdigit, hsign]

/-- White space ends every lexeme. -/
lemma Lexeme.breaks_of_isBlank (h : Text.isBlank c = true) : Breaks c := by
  refine breaks_of_isWordChar_eq_false (Text.isWordChar_of_isBlank h) ⟨?_, ?_, ?_⟩ <;>
    rintro rfl <;> exact absurd h (by decide)

/-- White space starts no token. -/
lemma Lexeme.start_of_isBlank (h : Text.isBlank c = true) (hl : start c = some l) : l = blank := by
  have hword := Text.isWordChar_of_isBlank h
  have halpha : (c.isAlpha || c == '_') = false := by
    simp_all [Text.isWordChar, Char.isAlphanum]
  have hdigit : c.isDigit = false := by
    simp_all [Text.isWordChar, Char.isAlphanum]
  simp only [start, halpha, hdigit, Bool.false_eq_true, if_false] at hl
  split at hl
  · exact (Option.some.inj hl).symm
  · split at hl <;> first | exact absurd h (by decide) | cases hl

/-- Behind a token that is complete the text is read as if it began there. -/
lemma tokensFrom_whole (t : Token) :
    tokensFrom (.whole t) cs = (tokensFrom .blank cs).map (t :: ·) := by
  cases cs with
  | nil => rfl
  | cons c cs =>
    cases hnext : Lexeme.start c with
    | none => simp [tokensFrom, Lexeme.extend, Lexeme.tokens?, hnext]
    | some next =>
      cases hrest : tokensFrom next cs <;>
        simp [tokensFrom, Lexeme.extend, Lexeme.tokens?, hnext, hrest]

/-- A character that ends every token before it and is a token by itself. -/
structure Lexeme.Separates (c : Char) (t : Token) : Prop where
  breaks : Breaks c
  start : Lexeme.start c = some (.whole t)

lemma Lexeme.separates_openParen : Separates '(' .openParen :=
  ⟨breaks_of_isWordChar_eq_false (by decide) (by decide), rfl⟩

lemma Lexeme.separates_closeParen : Separates ')' .closeParen :=
  ⟨breaks_of_isWordChar_eq_false (by decide) (by decide), rfl⟩

lemma Lexeme.separates_comma : Separates ',' .comma :=
  ⟨breaks_of_isWordChar_eq_false (by decide) (by decide), rfl⟩

/-- Two texts with a separator between them have the tokens of the one, the separator and the tokens
of the other. -/
lemma tokensFrom_append_separator {t : Token} (hc : Lexeme.Separates c t)
    (ha : tokensFrom l a = some ts) (hb : tokensFrom .blank b = some us) :
    tokensFrom l (a ++ c :: b) = some (ts ++ t :: us) := by
  refine (tokensFrom_append_eq_some_iff hc.breaks).mpr ⟨ts, t :: us, ha, ?_, rfl⟩
  refine (tokensFrom_cons_eq_some_iff (hc.breaks _)).mpr ⟨[], _, t :: us, rfl, hc.start, ?_, rfl⟩
  rw [tokensFrom_whole, hb, Option.map_some]

/-- A space between two texts. -/
lemma tokensFrom_append_space (ha : tokensFrom l a = some ts)
    (hb : tokensFrom .blank b = some us) : tokensFrom l (a ++ ' ' :: b) = some (ts ++ us) := by
  have hc : Lexeme.Breaks ' ' := Lexeme.breaks_of_isBlank (by decide)
  refine (tokensFrom_append_eq_some_iff hc).mpr ⟨ts, us, ha, ?_, rfl⟩
  exact (tokensFrom_cons_eq_some_iff (hc _)).mpr ⟨[], .blank, us, rfl, rfl, hb, rfl⟩

/-- White space in front of a text does not matter. -/
lemma tokensFrom_dropWhile_isBlank (h : tokensFrom .blank cs = some ts) :
    tokensFrom .blank (cs.dropWhile Text.isBlank) = some ts := by
  induction cs with
  | nil => exact h
  | cons c cs ih =>
    by_cases hc : Text.isBlank c = true
    · rw [List.dropWhile_cons_of_pos hc]
      obtain ⟨done, next, rest, hdone, hnext, hrest, rfl⟩ :=
        (tokensFrom_cons_eq_some_iff (Lexeme.breaks_of_isBlank hc _)).mp h
      obtain rfl := Lexeme.start_of_isBlank hc hnext
      obtain rfl : [] = done := Option.some.inj hdone
      exact ih hrest
    · rwa [List.dropWhile_cons_of_neg hc]

/-- White space behind a text does not matter. -/
lemma tokensFrom_reverse_dropWhile_isBlank (h : tokensFrom l cs = some ts) :
    tokensFrom l (cs.reverse.dropWhile Text.isBlank).reverse = some ts := by
  induction cs using List.reverseRecOn generalizing ts with
  | nil => exact h
  | append_singleton cs c ih =>
    rw [List.reverse_append, List.reverse_singleton, List.singleton_append]
    by_cases hc : Text.isBlank c = true
    · rw [List.dropWhile_cons_of_pos hc]
      obtain ⟨us, vs, hus, hvs, rfl⟩ :=
        (tokensFrom_append_eq_some_iff (Lexeme.breaks_of_isBlank hc)).mp h
      obtain ⟨done, next, rest, hdone, hnext, hrest, rfl⟩ :=
        (tokensFrom_cons_eq_some_iff (Lexeme.breaks_of_isBlank hc _)).mp hvs
      obtain rfl := Lexeme.start_of_isBlank hc hnext
      obtain rfl : [] = done := Option.some.inj hdone
      obtain rfl : [] = rest := Option.some.inj hrest
      simpa using ih hus
    · rw [List.dropWhile_cons_of_neg hc, List.reverse_cons, List.reverse_reverse]
      exact h

/-- White space at the ends of a text does not matter. -/
lemma tokensFrom_trim (h : tokensFrom .blank cs = some ts) :
    tokensFrom .blank (Text.trim cs) = some ts :=
  tokensFrom_reverse_dropWhile_isBlank (tokensFrom_dropWhile_isBlank h)

/-- Characters of names make a name longer up to the end of the text. -/
lemma tokensFrom_name (before : List Char) (h : ∀ c ∈ cs, Lexeme.isNameChar c = true) :
    tokensFrom (.name before) cs = some [.name (String.ofList (before ++ cs))] := by
  induction cs generalizing before with
  | nil => simp [tokensFrom, Lexeme.tokens?]
  | cons c cs ih =>
    have hextend : (Lexeme.name before).extend c = some (.name (before ++ [c])) := by
      simp [Lexeme.extend, h c List.mem_cons_self]
    rw [tokensFrom_cons_of_extend hextend, ih _ fun d hd => h d (List.mem_cons_of_mem _ hd),
      List.append_assoc, List.singleton_append]

/-- A name is one token. -/
lemma tokens_of_name {s : String} (hs : s.toList = c :: cs) (hc : (c.isAlpha || c == '_') = true)
    (hcs : ∀ d ∈ cs, Lexeme.isNameChar d = true) : tokens s = some [.name s] := by
  have hstart : Lexeme.start c = some (.name [c]) := by
    simp only [Lexeme.start, hc, if_true]
  rw [tokens, hs, tokensFrom_cons_eq_some_iff (l := .blank) rfl]
  refine ⟨[], .name [c], [.name s], rfl, hstart, ?_, rfl⟩
  rw [tokensFrom_name [c] hcs, List.singleton_append, ← hs, String.ofList_toList]

end Separation

end MaterialGraph.Expression
