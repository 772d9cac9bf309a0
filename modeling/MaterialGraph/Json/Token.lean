import MaterialGraph.Json.Number

/-!
# Tokens of JSON texts

A text is cut into punctuation, strings, and words and numbers.  A string or number that cannot be
read is a token too; where it cannot even be passed over, the text has no further tokens.
-/

namespace MaterialGraph.Json

/-- A word or a number. -/
inductive Scalar where
  | null
  | bool (b : Bool)
  | number (n : Number)
  deriving DecidableEq

/-- A token.  A stray character is one that no token starts with. -/
inductive Token where
  | openArray
  | closeArray
  | openObject
  | closeObject
  | comma
  | colon
  | stray
  | string (s : Except Defect String)
  | scalar (v : Except Defect Scalar)

namespace Token

/-! ### Strings -/

/-- A part of a string: a character, or a code unit given by a hexadecimal escape. -/
inductive Piece where
  | char (c : Char)
  | unit (n : Nat)
  deriving DecidableEq

/-- How a string ends: with a quote, before the rest of the text, or at a fault. -/
inductive Ending where
  | closed (rest : List Char)
  | stopped (f : Fault)
  deriving DecidableEq

/-- The value of a hexadecimal digit. -/
def hexDigit? (c : Char) : Option Nat :=
  if '0' ≤ c && c ≤ '9' then some (c.toNat - '0'.toNat)
  else if 'a' ≤ c && c ≤ 'f' then some (c.toNat - 'a'.toNat + 10)
  else if 'A' ≤ c && c ≤ 'F' then some (c.toNat - 'A'.toNat + 10)
  else none

/-- The code unit that four hexadecimal digits stand for. -/
def hexUnit? (a b c d : Char) : Option Nat :=
  match hexDigit? a, hexDigit? b, hexDigit? c, hexDigit? d with
  | some a, some b, some c, some d => some (((a * 16 + b) * 16 + c) * 16 + d)
  | _, _, _, _ => none

/-- The fault of an escape whose four digits are not there: the text is over within four bytes, or
one of them is no digit. -/
def hexFault (cs : List Char) : Fault :=
  if (String.ofList cs).utf8ByteSize < 4 then .endInString else .invalidHexEscape

/-- The character that a one-letter escape stands for. -/
def escaped? (c : Char) : Option Char :=
  [('"', '"'), ('\\', '\\'), ('/', '/'), ('b', '\x08'), ('f', '\x0c'), ('n', '\n'), ('r', '\r'),
    ('t', '\t')].lookup c

/-- The parts of a string with one more part in front. -/
def withPiece (p : Piece) (rest : List Piece × Ending) : List Piece × Ending :=
  (p :: rest.1, rest.2)

/-- The parts of a string, from behind its opening quote. -/
def pieces : List Char → List Piece × Ending
  | [] => ([], .stopped .endInString)
  | c :: cs =>
    if c = '"' then ([], .closed cs)
    else if c = '\\' then
      match cs with
      | [] => ([], .stopped .endInString)
      | e :: es =>
        if e = 'u' then
          match es with
          | h₁ :: h₂ :: h₃ :: h₄ :: rest =>
            match hexUnit? h₁ h₂ h₃ h₄ with
            | some n => withPiece (.unit n) (pieces rest)
            | none => ([], .stopped (hexFault es))
          | _ => ([], .stopped (hexFault es))
        else
          match escaped? e with
          | some d => withPiece (.char d) (pieces es)
          | none => ([], .stopped .invalidEscape)
    else if c.toNat < 0x20 then ([], .stopped .controlCharacter)
    else withPiece (.char c) (pieces cs)

/-- The first half of a pair of code units. -/
def isLeading (n : Nat) : Bool :=
  0xD800 ≤ n && n ≤ 0xDBFF

/-- The second half of a pair of code units. -/
def isTrailing (n : Nat) : Bool :=
  0xDC00 ≤ n && n ≤ 0xDFFF

/-- What is wrong when a string ends after the first half of a pair. -/
def halfFault : Ending → Fault
  | .stopped .endInString => .endInString
  | .stopped .invalidHexEscape => .invalidHexEscape
  | _ => .unpairedSurrogate

/-- The characters of a string.  Code units beyond the basic plane have to come in pairs. -/
def characters (ending : Ending) : List Piece → Except Fault (List Char)
  | [] =>
    match ending with
    | .closed _ => .ok []
    | .stopped f => .error f
  | .char c :: ps => (characters ending ps).map (c :: ·)
  | .unit n :: ps =>
    if isTrailing n then .error .loneSurrogate
    else if isLeading n then
      match ps with
      | [] => .error (halfFault ending)
      | .char _ :: _ => .error .unpairedSurrogate
      | .unit m :: ps =>
        if isTrailing m then
          (characters ending ps).map
            (Char.ofNat (0x10000 + (n - 0xD800) * 0x400 + (m - 0xDC00)) :: ·)
        else .error .loneSurrogate
    else (characters ending ps).map (Char.ofNat n :: ·)

/-- A string token from behind its opening quote, and the rest of the text if it goes on. -/
def ofString (cs : List Char) : Token × Option (List Char) :=
  let p := pieces cs
  match p.2, characters p.2 p.1 with
  | .closed rest, .ok s => (string (.ok (String.ofList s)), some rest)
  | .closed rest, .error f => (string (.error (.skippable f)), some rest)
  | .stopped f, .error f' => (string (.error ⟨f', some f⟩), none)
  | .stopped f, .ok _ => (string (.error (.both f)), none)

/-! ### Numbers -/

/-- A decimal digit. -/
def isDigit (c : Char) : Bool :=
  '0' ≤ c && c ≤ '9'

/-- The defect of a number where a digit is due. -/
def digitDefect : List Char → Defect
  | [] => ⟨.endInValue, some .invalidNumber⟩
  | _ :: _ => .both .invalidNumber

/-- At least one digit, and what follows the digits. -/
def someDigits (cs : List Char) : Except Defect (List Char × List Char) :=
  match cs.takeWhile isDigit with
  | [] => .error (digitDefect cs)
  | ds => .ok (ds, cs.dropWhile isDigit)

/-- The digits before the point: a zero alone, or digits that do not start with zero. -/
def wholeDigits : List Char → Except Defect (List Char × List Char)
  | '0' :: cs =>
    match cs with
    | c :: _ => if isDigit c then .error (.both .invalidNumber) else .ok (['0'], cs)
    | [] => .ok (['0'], [])
  | cs => someDigits cs

/-- The digits behind a point, if there is a point. -/
def fractionDigits : List Char → Except Defect (List Char × List Char)
  | '.' :: cs => someDigits cs
  | cs => .ok ([], cs)

/-- The sign and the digits of an exponent. -/
def signedDigits : List Char → Except Defect ((Bool × List Char) × List Char)
  | '-' :: cs => (someDigits cs).map fun (ds, rest) => ((true, ds), rest)
  | '+' :: cs => (someDigits cs).map fun (ds, rest) => ((false, ds), rest)
  | cs => (someDigits cs).map fun (ds, rest) => ((false, ds), rest)

/-- An exponent, if there is one. -/
def exponentDigits (cs : List Char) : Except Defect (Option (Bool × List Char) × List Char) :=
  match cs with
  | 'e' :: cs => (signedDigits cs).map fun (x, rest) => (some x, rest)
  | 'E' :: cs => (signedDigits cs).map fun (x, rest) => (some x, rest)
  | cs => .ok (none, cs)

/-- The parts of a number behind its sign, and what follows it. -/
def numeral (negative : Bool) (cs : List Char) : Except Defect (Numeral × List Char) :=
  match wholeDigits cs with
  | .error d => .error d
  | .ok (whole, cs) =>
    match fractionDigits cs with
    | .error d => .error d
    | .ok (fraction, cs) =>
      match exponentDigits cs with
      | .error d => .error d
      | .ok (exponent, cs) => .ok (⟨negative, whole, fraction, exponent⟩, cs)

/-- A number token from behind its sign, and the rest of the text if it goes on. -/
def ofNumber (negative : Bool) (cs : List Char) : Token × Option (List Char) :=
  match numeral negative cs with
  | .error d => (scalar (.error d), none)
  | .ok (n, rest) =>
    match n.value with
    | .ok v => (scalar (.ok (.number v)), some rest)
    | .error f => (scalar (.error (.skippable f)), some rest)

/-! ### Words -/

/-- What follows the letters of a word, if they are all there. -/
def word : List Char → List Char → Except Fault (List Char)
  | [], cs => .ok cs
  | _ :: _, [] => .error .endInValue
  | w :: ws, c :: cs => if c = w then word ws cs else .error .expectedWord

/-- A word token from behind its first letter, and the rest of the text if it goes on. -/
def ofWord (letters : String) (meaning : Scalar) (cs : List Char) : Token × Option (List Char) :=
  match word letters.toList cs with
  | .ok rest => (scalar (.ok meaning), some rest)
  | .error f => (scalar (.error (.both f)), none)

/-! ### Texts -/

/-- The blanks that may stand between tokens. -/
def isSpace (c : Char) : Bool :=
  c == ' ' || c == '\n' || c == '\t' || c == '\r'

/-- The token that starts with a given character, and the rest of the text if it goes on. -/
def next (c : Char) (cs : List Char) : Token × Option (List Char) :=
  if c = '"' then ofString cs
  else if c = '-' then ofNumber true cs
  else if isDigit c then ofNumber false (c :: cs)
  else if c = 'n' then ofWord "ull" .null cs
  else if c = 't' then ofWord "rue" (.bool true) cs
  else if c = 'f' then ofWord "alse" (.bool false) cs
  else if c = '[' then (openArray, some cs)
  else if c = ']' then (closeArray, some cs)
  else if c = '\x7b' then (openObject, some cs)
  else if c = '\x7d' then (closeObject, some cs)
  else if c = ',' then (comma, some cs)
  else if c = ':' then (colon, some cs)
  else (stray, none)

/-- At most so many tokens of a text. -/
def lexUpTo : Nat → List Char → List Token
  | 0, _ => []
  | _ + 1, [] => []
  | n + 1, c :: cs =>
    if isSpace c then lexUpTo n cs
    else
      match next c cs with
      | (token, none) => [token]
      | (token, some rest) => token :: lexUpTo n rest

/-- The tokens of a text.  Every token takes at least one character, so there are no more of them
than characters. -/
def lex (cs : List Char) : List Token :=
  lexUpTo cs.length cs

end Token

end MaterialGraph.Json
