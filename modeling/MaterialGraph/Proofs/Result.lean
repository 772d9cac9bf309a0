import Mathlib.Tactic.Common

/-!
# Results of steps that can fail

When a result that is worked on further succeeds, and with what.
-/

namespace MaterialGraph

/-- A function of a result succeeds just if the result does. -/
lemma map_eq_ok_iff {ε α β : Type} {f : α → β} {x : Except ε α} {b : β} :
    x.map f = .ok b ↔ ∃ a, x = .ok a ∧ f a = b := by
  cases x <;> simp [Except.map]

/-- A function of a result fails as the result does. -/
lemma map_eq_error_iff {ε α β : Type} {f : α → β} {x : Except ε α} {e : ε} :
    x.map f = .error e ↔ x = .error e := by
  cases x <;> simp [Except.map]

/-- Putting an error into other words does not touch a result that succeeds. -/
lemma mapError_eq_ok_iff {ε ε' α : Type} {f : ε → ε'} {x : Except ε α} {a : α} :
    x.mapError f = .ok a ↔ x = .ok a := by
  cases x <;> simp [Except.mapError]

/-- An error in other words comes from an error. -/
lemma mapError_eq_error_iff {ε ε' α : Type} {f : ε → ε'} {x : Except ε α} {e' : ε'} :
    x.mapError f = .error e' ↔ ∃ e, x = .error e ∧ f e = e' := by
  cases x <;> simp [Except.mapError]

/-- Two steps succeed just if the first does and the second does with its result. -/
lemma bind_eq_ok_iff {ε α β : Type} {f : α → Except ε β} {x : Except ε α} {b : β} :
    (x >>= f) = .ok b ↔ ∃ a, x = .ok a ∧ f a = .ok b := by
  cases x <;> simp [bind, Except.bind]

/-- A function of the result of two steps is one of the result of the second. -/
lemma map_bind {ε α β γ : Type} {f : α → Except ε β} {u : β → γ} {x : Except ε α} :
    (x >>= f).map u = x >>= fun a => (f a).map u := by
  cases x <;> rfl

end MaterialGraph
