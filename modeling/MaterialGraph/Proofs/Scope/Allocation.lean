import Mathlib.Data.List.Basic
import Mathlib.Tactic.Common
import MaterialGraph.Scope

/-!
# Allocation of variables

A name determines the type and the number it was made from (`nameOf_inj`), since no type has an
underscore in its name.  The lemmas about `allocate` say what a new variable does to the numbers
and to the look-up by node, so that nothing later has to look at the scopes themselves.
-/

namespace MaterialGraph

/-- A type is determined by its name. -/
lemma ValueType.name_injective {t u : ValueType} (h : t.name = u.name) : t = u := by
  have hparse := ValueType.parse_name t
  rw [h, ValueType.parse_name u] at hparse
  exact (Except.ok.inj hparse).symm

namespace SymbolTable

/-- The characters of a name: those of the type, an underscore, and digits. -/
lemma toList_nameOf (type : ValueType) (number : Nat) :
    (nameOf type number).toList = type.name.toList ++ '_' :: Nat.toDigits 10 number := by
  simp [nameOf]

/-- No type has an underscore in its name. -/
lemma underscore_notMem_name (type : ValueType) : '_' ∉ type.name.toList := by
  cases type <;> decide

/-- Different types or numbers give different names. -/
theorem nameOf_inj {t u : ValueType} {k m : Nat} :
    nameOf t k = nameOf u m ↔ t = u ∧ k = m := by
  constructor
  · intro h
    have hchars := congrArg String.toList h
    rw [toList_nameOf, toList_nameOf, List.append_cons_inj_of_notMem (underscore_notMem_name t)
      Nat.underscore_not_in_toDigits] at hchars
    obtain ⟨hname, _, hdigits⟩ := hchars
    refine ⟨ValueType.name_injective (String.toList_inj.mp hname), ?_⟩
    rw [← Nat.ofDigitChars_ten_toDigits (n := k), hdigits, Nat.ofDigitChars_ten_toDigits]
  · rintro ⟨rfl, rfl⟩
    rfl

variable (t : SymbolTable) (node : NodeId) (type : ValueType)

/-- A new variable is named after its type and the next number of that type. -/
@[simp] lemma allocate_symbol :
    (t.allocate node type).1 = ⟨type, nameOf type (t.counters.get type), node⟩ := by
  unfold allocate
  split <;> rfl

/-- A new variable uses up one number of its type. -/
@[simp] lemma counters_allocate :
    (t.allocate node type).2.counters = t.counters.bump type := by
  unfold allocate
  split <;> rfl

/-- A new variable is the one found for its node, and nothing changes for other nodes. -/
@[simp] lemma lookupNode_allocate (other : NodeId) :
    (t.allocate node type).2.lookupNode other =
      if node = other then some (t.allocate node type).1 else t.lookupNode other := by
  by_cases h : node = other
  · subst h
    cases hs : t.scopes <;> simp [allocate, lookupNode, hs]
  · cases hs : t.scopes <;> simp [allocate, lookupNode, hs, h, List.findSome?_cons]

/-- A table without variables finds none. -/
@[simp] lemma lookupNode_push_empty : SymbolTable.empty.push.lookupNode node = none :=
  rfl

/-- The numbers of every type start at zero. -/
@[simp] lemma get_counters_push_empty : SymbolTable.empty.push.counters.get type = 0 := by
  cases type <;> rfl

end SymbolTable

end MaterialGraph
