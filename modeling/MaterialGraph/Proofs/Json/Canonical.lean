import Mathlib.Data.String.Basic
import Mathlib.Tactic.Common
import MaterialGraph.Proofs.Json.Reading

/-!
# Canonical values

The entries of a map are sorted by key, with no key twice (`sorted_sortEntries`), and sorting leaves
such entries as they are (`sortEntries_of_sorted`).  So a canonical value is its own canonical form
(`Value.canonical_canonical`).

A value can be taken out of its tree with any budget that is not smaller than its depth
(`Tree.toValue_ofValue`); the values that are taken out of trees are not deeper than the budget
(`Tree.depth_le_of_toValue`), and their canonical forms are not deeper than they are
(`Value.depth_canonical_le`).
-/

namespace MaterialGraph

/-- The order of texts by code points is their usual order. -/
lemma Text.precedes_iff_lt {s t : String} : Text.precedes s.toList t.toList = true ↔ s < t := by
  rw [String.lt_iff_toList_lt]
  generalize s.toList = as
  generalize t.toList = bs
  induction as, bs using Text.precedes.induct with
  | case1 as => simp [Text.precedes]
  | case2 b bs => simp [Text.precedes]
  | case3 a as b bs hlt =>
    have hchar : a < b := hlt
    simp [Text.precedes, hlt, List.cons_lt_cons_iff, hchar]
  | case4 a as b bs hnot hlt =>
    have hchar : b < a := hlt
    simp [Text.precedes, hlt, hnot, List.cons_lt_cons_iff, hchar.not_gt, hchar.ne']
  | case5 a as b bs hnot hnot' ih =>
    have hchar : a = b := Char.toNat_inj.mp (by omega)
    simp [Text.precedes, hchar, ih]

namespace Json

/-! ### Sorted entries -/

/-- Entries whose keys increase. -/
def Sorted {α : Type} (entries : List (String × α)) : Prop :=
  entries.Pairwise fun p q => p.1 < q.1

section Entries

variable {α : Type} {key : String} {value : α} {entries sorted : List (String × α)}

/-- Inserting an entry adds no other one. -/
lemma mem_of_mem_insertEntry {p : String × α} (h : p ∈ insertEntry key value entries) :
    p = (key, value) ∨ p ∈ entries := by
  induction entries with
  | nil => exact Or.inl (List.mem_singleton.mp h)
  | cons q rest ih =>
    unfold insertEntry at h
    split_ifs at h
    · exact List.mem_cons.mp h
    · rcases List.mem_cons.mp h with h | h
      · exact Or.inl h
      · exact Or.inr (List.mem_cons_of_mem _ h)
    · rcases List.mem_cons.mp h with rfl | h
      · exact Or.inr List.mem_cons_self
      · exact (ih h).imp_right (List.mem_cons_of_mem _)

/-- Inserting an entry keeps entries sorted.  An entry that has the key already is replaced, so no
key is there twice. -/
lemma sorted_insertEntry (h : Sorted entries) : Sorted (insertEntry key value entries) := by
  induction entries with
  | nil => exact List.pairwise_singleton _ _
  | cons q rest ih =>
    obtain ⟨hq, hrest⟩ := List.pairwise_cons.mp h
    unfold insertEntry
    split_ifs with hprecedes hkey
    · have hlt : key < q.1 := Text.precedes_iff_lt.mp hprecedes
      refine List.pairwise_cons.mpr ⟨fun p hp => ?_, h⟩
      rcases List.mem_cons.mp hp with rfl | hp
      · exact hlt
      · exact hlt.trans (hq p hp)
    · obtain rfl := eq_of_beq hkey
      exact List.pairwise_cons.mpr ⟨hq, hrest⟩
    · -- the key is neither before nor equal to the first one, so it is behind it
      have hlt : q.1 < key := by
        rcases lt_trichotomy key q.1 with hlt | heq | hlt
        · exact absurd (Text.precedes_iff_lt.mpr hlt) hprecedes
        · exact absurd (beq_iff_eq.mpr heq.symm) hkey
        · exact hlt
      refine List.pairwise_cons.mpr ⟨fun p hp => ?_, ih hrest⟩
      rcases mem_of_mem_insertEntry hp with rfl | hp
      · exact hlt
      · exact hq p hp

/-- An entry whose key is behind all others goes to the end. -/
lemma insertEntry_of_forall_lt (h : ∀ p ∈ entries, p.1 < key) :
    insertEntry key value entries = entries ++ [(key, value)] := by
  induction entries with
  | nil => rfl
  | cons q rest ih =>
    obtain ⟨hq, hrest⟩ := List.forall_mem_cons.mp h
    have hprecedes : ¬ Text.precedes key.toList q.1.toList = true := fun hlt =>
      lt_asymm hq (Text.precedes_iff_lt.mp hlt)
    have hkey : ¬ (q.1 == key) = true := fun heq => hq.ne (eq_of_beq heq)
    unfold insertEntry
    rw [if_neg hprecedes, if_neg hkey, ih hrest]
    rfl

/-- Inserting entries one after the other keeps entries sorted. -/
lemma sorted_foldl_insertEntry (h : Sorted sorted) :
    Sorted (entries.foldl (fun sorted p => insertEntry p.1 p.2 sorted) sorted) := by
  induction entries generalizing sorted with
  | nil => exact h
  | cons p rest ih => exact ih (sorted_insertEntry h)

/-- Sorting sorts. -/
lemma sorted_sortEntries : Sorted (sortEntries entries) :=
  sorted_foldl_insertEntry List.Pairwise.nil

/-- Inserting entries one after the other adds only these. -/
lemma mem_of_mem_foldl_insertEntry {p : String × α}
    (h : p ∈ entries.foldl (fun sorted p => insertEntry p.1 p.2 sorted) sorted) :
    p ∈ sorted ∨ p ∈ entries := by
  induction entries generalizing sorted with
  | nil => exact Or.inl h
  | cons q rest ih =>
    rcases ih h with h | h
    · rcases mem_of_mem_insertEntry h with rfl | h
      · exact Or.inr List.mem_cons_self
      · exact Or.inl h
    · exact Or.inr (List.mem_cons_of_mem _ h)

/-- Sorting adds no entries. -/
lemma mem_of_mem_sortEntries {p : String × α} (h : p ∈ sortEntries entries) : p ∈ entries :=
  (mem_of_mem_foldl_insertEntry h).resolve_left List.not_mem_nil

/-- Entries that continue sorted ones go to the end of them, one after the other. -/
lemma foldl_insertEntry_of_sorted (h : Sorted (sorted ++ entries)) :
    entries.foldl (fun sorted p => insertEntry p.1 p.2 sorted) sorted =
      sorted ++ entries := by
  induction entries generalizing sorted with
  | nil => exact (List.append_nil sorted).symm
  | cons p rest ih =>
    have hlast : ∀ q ∈ sorted, q.1 < p.1 := fun q hq =>
      (List.pairwise_append.mp h).2.2 q hq p List.mem_cons_self
    have hstep : insertEntry p.1 p.2 sorted = sorted ++ [p] := insertEntry_of_forall_lt hlast
    rw [List.foldl_cons, hstep, ih (by simpa using h)]
    simp

/-- Entries that are sorted stay as they are. -/
lemma sortEntries_of_sorted (h : Sorted entries) : sortEntries entries = entries :=
  foldl_insertEntry_of_sorted h

end Entries

/-! ### Canonical forms -/

namespace Value

/-- Fields with canonical values stay as they are. -/
lemma canonicalFields_of_canonical {fields : List (String × Value)}
    (h : ∀ p ∈ fields, p.2.canonical = p.2) : canonicalFields fields = fields := by
  induction fields with
  | nil => rfl
  | cons p fields ih =>
    obtain ⟨hp, hfields⟩ := List.forall_mem_cons.mp h
    simp [canonicalFields, hp, ih hfields]

mutual

/-- A canonical form is its own canonical form. -/
lemma canonical_canonical : ∀ v : Value, v.canonical.canonical = v.canonical
  | null | bool _ | number _ | string _ => rfl
  | array items => by
    simp [canonical, canonicalItems_canonicalItems items]
  | object fields => by
    have hmem : ∀ p ∈ sortEntries (canonicalFields fields), p.2.canonical = p.2 := fun p hp =>
      canonical_of_mem_canonicalFields fields p (mem_of_mem_sortEntries hp)
    have hfields := canonicalFields_of_canonical hmem
    simp only [canonical]
    rw [hfields, sortEntries_of_sorted sorted_sortEntries]

/-- Canonical items are their own canonical forms. -/
lemma canonicalItems_canonicalItems : ∀ vs : List Value,
    canonicalItems (canonicalItems vs) = canonicalItems vs
  | [] => rfl
  | v :: vs => by
    simp [canonicalItems, canonical_canonical v, canonicalItems_canonicalItems vs]

/-- The values of canonical fields are their own canonical forms. -/
lemma canonical_of_mem_canonicalFields : ∀ (fs : List (String × Value)),
    ∀ p ∈ canonicalFields fs, p.2.canonical = p.2
  | [], p, hp => absurd hp List.not_mem_nil
  | (key, v) :: fs, p, hp => by
    rcases List.mem_cons.mp hp with rfl | hp
    · exact canonical_canonical v
    · exact canonical_of_mem_canonicalFields fs p hp

end

/-! ### Depth -/

mutual

/-- How many arrays and objects lie in each other. -/
def depth : Value → Nat
  | array items => itemsDepth items + 1
  | object fields => fieldsDepth fields + 1
  | _ => 0

/-- The greatest depth of the items of an array. -/
def itemsDepth : List Value → Nat
  | [] => 0
  | v :: vs => max (depth v) (itemsDepth vs)

/-- The greatest depth of the fields of an object. -/
def fieldsDepth : List (String × Value) → Nat
  | [] => 0
  | (_, v) :: fs => max (depth v) (fieldsDepth fs)

end

/-- Fields are as deep as the deepest of them. -/
lemma fieldsDepth_le_iff {fields : List (String × Value)} {n : Nat} :
    fieldsDepth fields ≤ n ↔ ∀ p ∈ fields, p.2.depth ≤ n := by
  induction fields with
  | nil => simp [fieldsDepth]
  | cons p fields ih => simp [fieldsDepth, ih]

mutual

/-- The canonical form is not deeper. -/
lemma depth_canonical_le : ∀ v : Value, v.canonical.depth ≤ v.depth
  | null | bool _ | number _ | string _ => le_rfl
  | array items => Nat.succ_le_succ (itemsDepth_canonicalItems_le items)
  | object fields => by
    refine Nat.succ_le_succ (fieldsDepth_le_iff.mpr fun p hp => ?_)
    have hfields := fieldsDepth_canonicalFields_le fields
    exact fieldsDepth_le_iff.mp hfields p (mem_of_mem_sortEntries hp)

/-- The canonical forms of items are not deeper. -/
lemma itemsDepth_canonicalItems_le : ∀ vs : List Value,
    itemsDepth (canonicalItems vs) ≤ itemsDepth vs
  | [] => le_rfl
  | v :: vs => max_le_max (depth_canonical_le v) (itemsDepth_canonicalItems_le vs)

/-- The canonical forms of fields are not deeper. -/
lemma fieldsDepth_canonicalFields_le : ∀ fs : List (String × Value),
    fieldsDepth (canonicalFields fs) ≤ fieldsDepth fs
  | [] => le_rfl
  | (_, v) :: fs => max_le_max (depth_canonical_le v) (fieldsDepth_canonicalFields_le fs)

end

end Value

namespace Tree

mutual

/-- A value can be taken out of its tree if the budget allows its depth. -/
lemma toValue_ofValue : ∀ (v : Value) (budget : Nat), v.depth ≤ budget →
    (ofValue v).toValue budget = .ok v
  | .null, _, _ | .bool _, _, _ | .number _, _, _ | .string _, _, _ => rfl
  | .array _, 0, h => absurd h (Nat.not_succ_le_zero _)
  | .array items, budget + 1, h => by
    have hitems := itemValues_ofItems items budget (Nat.le_of_succ_le_succ h)
    simp [ofValue, toValue, hitems, ended, bind, Except.bind, pure, Except.pure]
  | .object _, 0, h => absurd h (Nat.not_succ_le_zero _)
  | .object fields, budget + 1, h => by
    have hfields := fieldValues_ofFields fields budget (Nat.le_of_succ_le_succ h)
    simp [ofValue, toValue, hfields, ended, bind, Except.bind, pure, Except.pure]

/-- Items can be taken out of their trees if the budget allows the depth of each. -/
lemma itemValues_ofItems : ∀ (vs : List Value) (budget : Nat), Value.itemsDepth vs ≤ budget →
    itemValues budget (ofItems vs) = .ok vs
  | [], _, _ => rfl
  | v :: vs, budget, h => by
    obtain ⟨hv, hvs⟩ := max_le_iff.mp h
    simp [ofItems, itemValues, toValue_ofValue v budget hv, itemValues_ofItems vs budget hvs, bind,
      Except.bind, pure, Except.pure]

/-- Fields can be taken out of their trees if the budget allows the depth of each. -/
lemma fieldValues_ofFields : ∀ (fs : List (String × Value)) (budget : Nat),
    Value.fieldsDepth fs ≤ budget → fieldValues budget (ofFields fs) = .ok fs
  | [], _, _ => rfl
  | (key, v) :: fs, budget, h => by
    obtain ⟨hv, hfs⟩ := max_le_iff.mp h
    simp [ofFields, fieldValues, toValue_ofValue v budget hv, fieldValues_ofFields fs budget hfs,
      bind, Except.bind, pure, Except.pure]

end

mutual

/-- What is taken out of a tree is not deeper than the budget. -/
lemma depth_le_of_toValue : ∀ (t : Tree) {budget : Nat} {v : Value},
    t.toValue budget = .ok v → v.depth ≤ budget
  | null, _, _, h | bool _, _, _, h | number _, _, _, h | string _, _, _, h => by
    obtain rfl := Except.ok.inj h
    exact Nat.zero_le _
  | array items stop, 0, _, h => nomatch h
  | array items stop, budget + 1, v, h => by
    obtain ⟨vs, hvs, h⟩ := bind_eq_ok_iff.mp h
    obtain ⟨_, _, h⟩ := bind_eq_ok_iff.mp h
    obtain rfl := Except.ok.inj h
    exact Nat.succ_le_succ (itemsDepth_le_of_itemValues items hvs)
  | object fields stop, 0, _, h => nomatch h
  | object fields stop, budget + 1, v, h => by
    obtain ⟨vs, hvs, h⟩ := bind_eq_ok_iff.mp h
    obtain ⟨_, _, h⟩ := bind_eq_ok_iff.mp h
    obtain rfl := Except.ok.inj h
    exact Nat.succ_le_succ (fieldsDepth_le_of_fieldValues fields hvs)
  | defect d, _, _, h => nomatch h

/-- Items that are taken out of trees are not deeper than the budget. -/
lemma itemsDepth_le_of_itemValues : ∀ (ts : List Tree) {budget : Nat} {vs : List Value},
    itemValues budget ts = .ok vs → Value.itemsDepth vs ≤ budget
  | [], _, _, h => by
    obtain rfl := Except.ok.inj h
    exact Nat.zero_le _
  | t :: ts, budget, vs, h => by
    obtain ⟨v, hv, h⟩ := bind_eq_ok_iff.mp h
    obtain ⟨vs', hvs, h⟩ := bind_eq_ok_iff.mp h
    obtain rfl := Except.ok.inj h
    exact max_le (depth_le_of_toValue t hv) (itemsDepth_le_of_itemValues ts hvs)

/-- Fields that are taken out of trees are not deeper than the budget. -/
lemma fieldsDepth_le_of_fieldValues : ∀ (fs : List (Key × Tree)) {budget : Nat}
    {vs : List (String × Value)}, fieldValues budget fs = .ok vs → Value.fieldsDepth vs ≤ budget
  | [], _, _, h => by
    obtain rfl := Except.ok.inj h
    exact Nat.zero_le _
  | (key, t) :: fs, budget, vs, h => by
    obtain ⟨name, _, h⟩ := bind_eq_ok_iff.mp h
    obtain ⟨v, hv, h⟩ := bind_eq_ok_iff.mp h
    obtain ⟨vs', hvs, h⟩ := bind_eq_ok_iff.mp h
    obtain rfl := Except.ok.inj h
    exact max_le (depth_le_of_toValue t hv) (fieldsDepth_le_of_fieldValues fs hvs)

end

end Tree

end Json

end MaterialGraph
