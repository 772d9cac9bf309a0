import MaterialGraph.Number.Binary
import MaterialGraph.Number.Decimal

/-!
# Six decimal places

Decimal text of a number with at most six places: the exact value is rounded to a multiple of
`10 ^ -6`, a half going to the even one, and zeros at the end are left out except for the one right
after the point.  There is no negative zero, and what is not finite is written as zero.
-/

namespace MaterialGraph

namespace Decimal

/-- The digits behind the point without the zeros at the end, but at least one digit. -/
def places (ds : List Char) : List Char :=
  match (ds.reverse.dropWhile (· == '0')).reverse with
  | [] => ['0']
  | kept => kept

/-- The number of millionths that a fixed-point text counts. -/
def million : Nat := 1000000

/-- Text of `± units / 10 ^ 6`. -/
def text (negative : Bool) (units : Nat) : String :=
  let sign := if negative && units != 0 then "-" else ""
  sign ++ Nat.repr (units / million) ++ "." ++ String.ofList (places (digits 6 (units % million)))

end Decimal

namespace Binary

/-- How many millionths a finite value amounts to, rounded. -/
def millionths (mantissa : Nat) (exponent : Int) : Nat :=
  let q := quotient mantissa exponent
  roundDiv (q.1 * Decimal.million) q.2

/-- Text of a value with one to six decimal places. -/
def fixedText : Binary → String
  | finite negative mantissa exponent => Decimal.text negative (millionths mantissa exponent)
  | _ => "0.0"

end Binary

end MaterialGraph
