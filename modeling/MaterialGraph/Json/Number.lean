import MaterialGraph.Json.Fault
import MaterialGraph.Number.Binary

/-!
# Numbers of JSON texts

A number is a whole number of 64 bits if it is written as one and fits, and otherwise a value of
the 64-bit floating-point format.  The latter is computed in two rounded steps: as many leading
digits as fit into 64 bits make a whole number, which is rounded, and the result is multiplied or
divided by a rounded power of ten.
-/

namespace MaterialGraph

namespace Binary

/-- The rounded product of two finite values. -/
def multiply (f : Format) : Binary → Binary → Binary
  | finite s m e, finite s' m' e' =>
    let q := quotient (m * m') (e + e')
    f.round (s != s') q.1 q.2
  | _, _ => nan

/-- The rounded quotient of two finite values. -/
def divide (f : Format) : Binary → Binary → Binary
  | finite s m e, finite s' m' e' =>
    let q := quotient m (e - e')
    f.round (s != s') q.1 (q.2 * m')
  | _, _ => nan

end Binary

namespace Json

/-- A number: a natural number below `2 ^ 64`, the negative of a positive one up to `2 ^ 63`, or a
finite floating-point value. -/
inductive Number where
  | natural (n : Nat)
  | negative (n : Nat)
  | real (x : Binary)
  deriving DecidableEq

/-- A number as it is written: the digits before and behind the point, and those of the exponent
with its sign. -/
structure Numeral where
  negative : Bool
  whole : List Char
  fraction : List Char
  exponent : Option (Bool × List Char)
  deriving DecidableEq

namespace Number

/-- The floating-point value nearest to a number. -/
def toDouble : Number → Binary
  | natural n => Binary.ofNat Binary.double n
  | negative n => (Binary.ofNat Binary.double n).negate
  | real x => x

end Number

namespace Numeral

/-- The value of a digit. -/
def digitValue (c : Char) : Nat :=
  c.toNat - '0'.toNat

/-- Digits are appended to a number as long as it does not pass a limit.  The number, and how many
digits were taken. -/
def absorb (limit n : Nat) : List Char → Nat × Nat
  | [] => (n, 0)
  | c :: cs =>
    let next := 10 * n + digitValue c
    if next ≤ limit then
      let rest := absorb limit next cs
      (rest.1, rest.2 + 1)
    else (n, 0)

/-- The greatest number of 64 bits. -/
def wordLimit : Nat := Nat.pow 2 64 - 1

/-- The greatest exponent that is looked at. -/
def exponentLimit : Nat := Nat.pow 2 31 - 1

/-- The greatest power of ten that is used at once. -/
def powerLimit : Nat := 308

/-- A rounded power of ten. -/
def powerOfTen (k : Nat) : Binary :=
  Binary.double.round false (Nat.pow 10 k) 1

/-- A value times a power of ten, a step at a time if the exponent is large; nothing if the result
would be infinite. -/
def scale (x : Binary) (exponent : Int) : Option Binary :=
  if exponent.natAbs ≤ powerLimit then
    if 0 ≤ exponent then
      match Binary.multiply Binary.double x (powerOfTen exponent.natAbs) with
      | .finite s m e => some (.finite s m e)
      | _ => none
    else some (Binary.divide Binary.double x (powerOfTen exponent.natAbs))
  else if x.isZero then some x
  else if 0 ≤ exponent then none
  else scale (Binary.divide Binary.double x (powerOfTen powerLimit)) (exponent + 308)
termination_by exponent.natAbs
decreasing_by
  simp only [powerLimit] at *
  omega

/-- The floating-point value of a whole number times a power of ten. -/
def real (negative : Bool) (significand : Nat) (exponent : Int) : Except Fault Number :=
  match scale (Binary.ofNat Binary.double significand) exponent with
  | some x => .ok (.real (if negative then x.negate else x))
  | none => .error .numberOutOfRange

/-- The number that was written as a whole number within 64 bits.  Minus zero and what is below
`-2 ^ 63` become floating-point values. -/
def whole64 (negative : Bool) (n : Nat) : Number :=
  if negative then
    if n = 0 || Nat.pow 2 63 < n then .real (Binary.ofNat Binary.double n).negate else .negative n
  else .natural n

/-- The number that a numeral stands for. -/
def value (n : Numeral) : Except Fault Number :=
  let whole := absorb wordLimit 0 n.whole
  let left := n.whole.length - whole.2
  if left = 0 && n.fraction.isEmpty && n.exponent.isNone then .ok (whole64 n.negative whole.1)
  else
    let all := absorb wordLimit whole.1 n.fraction
    let place : Int := Int.ofNat left - Int.ofNat all.2
    match n.exponent with
    | none => real n.negative all.1 place
    | some (down, digits) =>
      let exponent := absorb exponentLimit 0 digits
      if exponent.2 = digits.length then
        let shift := Int.ofNat exponent.1
        real n.negative all.1 (if down then place - shift else place + shift)
      else if all.1 = 0 || down then real n.negative 0 0
      else .error .numberOutOfRange

end Numeral

end Json

end MaterialGraph
