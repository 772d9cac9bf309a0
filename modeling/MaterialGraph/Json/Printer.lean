import MaterialGraph.Json.Value
import MaterialGraph.Number.Shortest

/-!
# The text of JSON values

Values are written without blanks, objects in the order of their fields.  A floating-point value is
written with the fewest digits that read back, and so that it cannot be taken for a whole number.
-/

namespace MaterialGraph.Json

/-! ### Strings -/

/-- A hexadecimal digit. -/
def hexChar (n : Nat) : Char :=
  if n < 10 then Char.ofNat ('0'.toNat + n) else Char.ofNat ('a'.toNat + (n - 10))

/-- How a character is written inside a string.  Quotes, backslashes and control characters are
escaped, and nothing else. -/
def escapedChar (c : Char) : List Char :=
  if c = '"' then ['\\', '"']
  else if c = '\\' then ['\\', '\\']
  else if c = '\x08' then ['\\', 'b']
  else if c = '\x0c' then ['\\', 'f']
  else if c = '\n' then ['\\', 'n']
  else if c = '\r' then ['\\', 'r']
  else if c = '\t' then ['\\', 't']
  else if c.toNat < 0x20 then
    ['\\', 'u', '0', '0', hexChar (c.toNat / 16), hexChar (c.toNat % 16)]
  else [c]

/-- A string in quotes. -/
def stringText (s : String) : String :=
  "\"" ++ String.ofList (s.toList.flatMap escapedChar) ++ "\""

/-! ### Numbers -/

/-- Zeros. -/
def zeros (n : Nat) : List Char :=
  List.replicate n '0'

/-- A decimal number with `digits` whose point stands behind the first `point` of them.  Between
a hundred-thousandth and ten quadrillion it is written out, and otherwise with an exponent. -/
def decimalText (digits : List Char) (point : Int) : List Char :=
  if 0 < point && point ≤ 16 then
    let whole := digits.take point.toNat ++ zeros (point.toNat - digits.length)
    let fraction := digits.drop point.toNat
    whole ++ '.' :: (if fraction.isEmpty then ['0'] else fraction)
  else if -5 < point && point ≤ 0 then ['0', '.'] ++ zeros (-point).toNat ++ digits
  else
    let first := digits.take 1
    let fraction := digits.drop 1
    let mantissa := if fraction.isEmpty then first else first ++ '.' :: fraction
    let exponent := point - 1
    let sign := if exponent < 0 then '-' else '+'
    mantissa ++ 'e' :: sign :: (Nat.toDigits 10 exponent.natAbs)

/-- A finite floating-point value.  What is not finite is not written. -/
def realText : Binary → String
  | .finite negative mantissa exponent =>
    let sign := if negative then "-" else ""
    if mantissa = 0 then sign ++ "0.0"
    else
      let d := Binary.shortest mantissa exponent
      let all := Nat.toDigits 10 d.coefficient
      let digits := (all.reverse.dropWhile (· == '0')).reverse
      sign ++ String.ofList (decimalText digits (Int.ofNat all.length + d.exponent))
  | _ => "null"

/-- A number. -/
def Number.text : Number → String
  | natural n => Nat.repr n
  | negative n => "-" ++ Nat.repr n
  | real x => realText x

/-! ### Values -/

namespace Value

mutual

/-- The text of a value. -/
def text : Value → String
  | null => "null"
  | bool b => if b then "true" else "false"
  | number n => n.text
  | string s => stringText s
  | array items => "[" ++ itemsText items ++ "]"
  | object fields => "\x7b" ++ fieldsText fields ++ "\x7d"

/-- The items of an array with commas between them. -/
def itemsText : List Value → String
  | [] => ""
  | [v] => text v
  | v :: vs => text v ++ "," ++ itemsText vs

/-- The fields of an object with commas between them. -/
def fieldsText : List (String × Value) → String
  | [] => ""
  | [(key, v)] => stringText key ++ ":" ++ text v
  | (key, v) :: fs => stringText key ++ ":" ++ text v ++ "," ++ fieldsText fs

end

end Value

end MaterialGraph.Json
