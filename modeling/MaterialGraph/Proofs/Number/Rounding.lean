import Mathlib
import MaterialGraph.Number.Rounding

/-!
# The nearest integer

What it means for an integer to be the nearest one to a rational number when a half goes to the
even neighbour (`IsNearest`).  There is just one such integer (`IsNearest.unique`), it grows with
the number (`IsNearest.mono`), and for a quotient of natural numbers it is the one that is computed
(`isNearest_roundDiv`).
-/

namespace MaterialGraph

/-- No integer is nearer to the number, and if another one is equally near, this one is even. -/
def IsNearest (q : ℚ) (n : ℤ) : Prop :=
  |q - n| < 1 / 2 ∨ |q - n| = 1 / 2 ∧ Even n

namespace IsNearest

variable {q r : ℚ} {m n : ℤ}

/-- The nearest integer is not more than a half away. -/
lemma abs_sub_le (h : IsNearest q n) : |q - n| ≤ 1 / 2 := by
  rcases h with h | ⟨h, -⟩
  · exact h.le
  · exact h.le

/-- An integer that is exactly a half away has to be even. -/
lemma even_of_abs_eq (h : IsNearest q n) (hhalf : |q - n| = 1 / 2) : Even n := by
  rcases h with h | ⟨-, h⟩
  · exact absurd hhalf h.ne
  · exact h

/-- Rounding a half to the even neighbour treats both signs alike. -/
lemma neg (h : IsNearest q n) : IsNearest (-q) (-n) := by
  have hdistance : |-q - ((-n : ℤ) : ℚ)| = |q - n| := by
    rw [← abs_neg]
    congr 1
    push_cast
    ring
  unfold IsNearest
  rw [hdistance, even_neg]
  exact h

/-- The nearest integer does not get smaller when the number gets larger. -/
lemma mono (hm : IsNearest q m) (hn : IsNearest r n) (hle : q ≤ r) : m ≤ n := by
  by_contra hlt
  have hsucc : (n : ℚ) + 1 ≤ m := by
    have hint : n + 1 ≤ m := by omega
    exact_mod_cast hint
  have hq := (abs_le.mp hm.abs_sub_le).1
  have hr := (abs_le.mp hn.abs_sub_le).2
  -- the numbers would have to be equal and lie in the middle of two neighbours, both of them even
  have hmiddle : q - m = -(1 / 2) ∧ r - n = 1 / 2 ∧ (m : ℚ) = n + 1 := by
    refine ⟨?_, ?_, ?_⟩ <;> linarith
  have hsuccessor : m = n + 1 := by exact_mod_cast hmiddle.2.2
  have heven : Even n := hn.even_of_abs_eq (by rw [hmiddle.2.1]; norm_num)
  have heven' : Even (n + 1) := hsuccessor ▸ hm.even_of_abs_eq (by rw [hmiddle.1]; norm_num)
  exact Int.not_even_iff_odd.mpr heven.add_one heven'

/-- A number has one nearest integer. -/
lemma unique (hm : IsNearest q m) (hn : IsNearest q n) : m = n :=
  le_antisymm (hm.mono hn le_rfl) (hn.mono hm le_rfl)

/-- An integer is the nearest one to itself. -/
lemma intCast (n : ℤ) : IsNearest n n := by
  left
  norm_num

end IsNearest

/-- The computed integer is the one nearest to the quotient. -/
lemma isNearest_roundDiv {den : Nat} (num : Nat) (hden : 0 < den) :
    IsNearest ((num : ℚ) / den) (roundDiv num den : ℕ) := by
  have hpos : (0 : ℚ) < den := by exact_mod_cast hden
  have hsplit : (num : ℚ) / den = (num / den : ℕ) + ((num % den : ℕ) : ℚ) / den := by
    rw [div_eq_iff hpos.ne', add_mul, div_mul_cancel₀ _ hpos.ne']
    exact_mod_cast (Nat.div_add_mod' num den).symm
  have hrem : ((num % den : ℕ) : ℚ) / den < 1 := by
    rw [div_lt_one hpos]
    exact_mod_cast Nat.mod_lt num hden
  have hrem' : 0 ≤ ((num % den : ℕ) : ℚ) / den := by positivity
  rw [hsplit]
  unfold roundDiv
  generalize num / den = k
  split_ifs with hbelow habove
  · have hlt : ((num % den : ℕ) : ℚ) / den < 1 / 2 := by
      rw [div_lt_div_iff₀ hpos two_pos, mul_comm, one_mul]
      exact_mod_cast hbelow
    left
    rw [Int.cast_natCast, abs_lt]
    constructor <;> linarith
  · have hlt : 1 / 2 < ((num % den : ℕ) : ℚ) / den := by
      rw [div_lt_div_iff₀ two_pos hpos, mul_comm _ (2 : ℚ), one_mul]
      exact_mod_cast habove
    left
    rw [Int.cast_natCast, Nat.cast_succ, abs_lt]
    constructor <;> linarith
  · have heq : ((num % den : ℕ) : ℚ) / den = 1 / 2 := by
      have hnat : 2 * (num % den) = den := by omega
      rw [div_eq_div_iff hpos.ne' two_ne_zero, mul_comm, one_mul]
      exact_mod_cast hnat
    right
    rw [heq]
    -- an odd quotient goes up and an even one stays, and both end a half away
    rcases Nat.mod_two_eq_zero_or_one k with heven | hodd
    · rw [heven]
      refine ⟨by push_cast; norm_num, ?_⟩
      exact_mod_cast Nat.even_iff.mpr heven
    · rw [hodd]
      refine ⟨by push_cast; norm_num, ?_⟩
      exact_mod_cast (Nat.odd_iff.mpr hodd).add_one

end MaterialGraph
