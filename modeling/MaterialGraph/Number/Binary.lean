import MaterialGraph.Number.Rounding

/-!
# Binary floating point

The values of a binary floating-point format as signed dyadic numbers, and rounding of an exact
quotient to a format.  Every operation computes its exact result first and rounds it once, to
nearest, a half going to the even mantissa.
-/

namespace MaterialGraph

/-- A value of a binary floating-point format.  A finite one is `± mantissa · 2 ^ exponent`. -/
inductive Binary where
  | finite (negative : Bool) (mantissa : Nat) (exponent : Int)
  | infinite (negative : Bool)
  | nan
  deriving DecidableEq

namespace Binary

/-- A format: mantissas have at most `precision` bits, and the exponent of their last place lies
between `least` and `greatest`. -/
structure Format where
  precision : Nat
  least : Int
  greatest : Int
  deriving DecidableEq

/-- The 32-bit format. -/
def single : Format := ⟨24, -149, 104⟩

/-- The 64-bit format. -/
def double : Format := ⟨53, -1074, 971⟩

/-- The quotient `num / den` in units of `2 ^ exponent`: its two sides. -/
def scaled (num den : Nat) (exponent : Int) : Nat × Nat :=
  (num * Nat.pow 2 (-exponent).toNat, den * Nat.pow 2 exponent.toNat)

namespace Format

/-- The exponent of the last place that a format spends on `num / den`: the least one that keeps
the quotient below `2 ^ precision` units. -/
def lastPlace (f : Format) (num den : Nat) : Int :=
  if num = 0 then f.least
  else
    let estimate : Int :=
      Int.ofNat (Nat.log2 num) - Int.ofNat (Nat.log2 den) - Int.ofNat f.precision
    let units := scaled num den estimate
    let place := if units.1 < units.2 * Nat.pow 2 f.precision then estimate else estimate + 1
    if place < f.least then f.least else place

/-- The value with a mantissa of at most `2 ^ precision` units; infinite when the exponent is
beyond the format. -/
def pack (f : Format) (negative : Bool) (mantissa : Nat) (exponent : Int) : Binary :=
  let carry := mantissa = Nat.pow 2 f.precision
  let mantissa' := if carry then mantissa / 2 else mantissa
  let exponent' := if carry then exponent + 1 else exponent
  if f.greatest < exponent' then infinite negative else finite negative mantissa' exponent'

/-- The value of the format nearest to `± num / den`. -/
def round (f : Format) (negative : Bool) (num den : Nat) : Binary :=
  let place := f.lastPlace num den
  let units := scaled num den place
  f.pack negative (roundDiv units.1 units.2) place

end Format

/-- The size of a finite value as a quotient. -/
def quotient (mantissa : Nat) (exponent : Int) : Nat × Nat :=
  (mantissa * Nat.pow 2 exponent.toNat, Nat.pow 2 (-exponent).toNat)

/-- The value of a format nearest to a given value. -/
def convert (f : Format) : Binary → Binary
  | finite negative mantissa exponent =>
    let q := quotient mantissa exponent
    f.round negative q.1 q.2
  | infinite negative => infinite negative
  | nan => nan

/-- The value of a format nearest to a natural number. -/
def ofNat (f : Format) (n : Nat) : Binary :=
  f.round false n 1

/-- The value with a given 32-bit pattern: a sign, eight bits of exponent, the rest mantissa. -/
def ofBits (bits : Nat) : Binary :=
  let negative := bits / Nat.pow 2 31 % 2 == 1
  let field := bits / Nat.pow 2 23 % Nat.pow 2 8
  let fraction := bits % Nat.pow 2 23
  if field = 255 then
    if fraction = 0 then infinite negative else nan
  else if field = 0 then finite negative fraction (-149)
  else finite negative (Nat.pow 2 23 + fraction) (Int.ofNat field - 150)

/-- Whether a value is a zero, of either sign. -/
def isZero : Binary → Bool
  | finite _ mantissa _ => mantissa == 0
  | _ => false

/-- The value with the opposite sign. -/
def negate : Binary → Binary
  | finite negative mantissa exponent => finite (!negative) mantissa exponent
  | infinite negative => infinite (!negative)
  | nan => nan

end Binary

end MaterialGraph
