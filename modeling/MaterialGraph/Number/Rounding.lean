/-!
# Rounding a quotient

The nearest integer to a quotient of natural numbers, a half going to the even neighbour.
-/

namespace MaterialGraph

/-- The integer nearest to `num / den`; of two equally near ones, the even one. -/
def roundDiv (num den : Nat) : Nat :=
  if 2 * (num % den) < den then num / den
  else if den < 2 * (num % den) then num / den + 1
  else num / den + num / den % 2

end MaterialGraph
