import MaterialGraph.Number.Binary
import MaterialGraph.Number.Decimal

/-!
# The fewest digits that read back

A finite value of the 64-bit format is the nearest such value to every number of an interval around
it.  Among the decimals of that interval the one with the fewest digits names the value; of several
with that many digits the nearest is taken, and of two equally near ones the one whose last digit
is even.
-/

namespace MaterialGraph

namespace Binary

/-- The numbers that round to a value of the 64-bit format: between `low` and `high` quarters of
its last place, the ends included when `closed`. -/
structure Interval where
  low : Nat
  high : Nat
  closed : Bool

/-- The interval around `mantissa · 2 ^ exponent`.  Below a power of two values lie closer. -/
def Interval.around (mantissa : Nat) (exponent : Int) : Interval where
  low := if mantissa = Nat.pow 2 52 ∧ double.least < exponent then 4 * mantissa - 1
    else 4 * mantissa - 2
  high := 4 * mantissa + 2
  closed := mantissa % 2 == 0

/-- Whether a decimal lies in the interval around a value with the given exponent. -/
def Interval.holds (i : Interval) (exponent : Int) (d : Decimal) : Bool :=
  let q := d.quotient
  let quarter := exponent - 2
  let unit := Nat.pow 2 quarter.toNat
  let part := Nat.pow 2 (-quarter).toNat
  let value := q.1 * part
  let low := i.low * unit * q.2
  let high := i.high * unit * q.2
  if i.closed then low ≤ value && value ≤ high else low < value && value < high

/-- The best decimal with a coefficient of `count` digits that reads back as
`mantissa · 2 ^ exponent`, if there is one: one of the value's two neighbours among them. -/
def candidate (mantissa : Nat) (exponent : Int) (count : Nat) : Option Decimal :=
  let q := quotient mantissa exponent
  let place := Decimal.leadingPlace q.1 q.2 - Int.ofNat count + 1
  let num := q.1 * Nat.pow 10 (-place).toNat
  let den := q.2 * Nat.pow 10 place.toNat
  let below : Decimal := ⟨num / den, place⟩
  let above : Decimal := ⟨num / den + 1, place⟩
  let i := Interval.around mantissa exponent
  match i.holds exponent below, i.holds exponent above with
  | true, true => some ⟨roundDiv num den, place⟩
  | true, false => some below
  | false, true => some above
  | false, false => none

/-- The decimal with the fewest digits that reads back as the positive value
`mantissa · 2 ^ exponent` of the 64-bit format.  Seventeen digits always do. -/
def shortest (mantissa : Nat) (exponent : Int) : Decimal :=
  ((List.range 17).findSome? fun n => candidate mantissa exponent (n + 1)).getD ⟨0, 0⟩

end Binary

end MaterialGraph
