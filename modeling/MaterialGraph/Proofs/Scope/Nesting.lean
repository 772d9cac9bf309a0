import Mathlib
import MaterialGraph.Proofs.Scope.History

/-!
# Scopes leave no trace

A block opens a scope, does something and closes the scope again.  What it does may open and close
further scopes, as long as these are matched with each other inside the block
(`SymbolTable.WellNested`).  The only scope that such actions can change is the innermost one
(`WellNested.exists_scopes_run`), and a block opens that one itself.  So the table after a block is
the table before it, whatever was shadowed and however far the counters went.

Whether actions are well nested can be found out by counting the open scopes
(`wellNested_iff_level`).
-/

namespace MaterialGraph

namespace SymbolTable

/-- Actions in which every opened scope is closed again, and no other scope is closed. -/
inductive WellNested : List Action → Prop where
  | nil : WellNested []
  | allocate (node : NodeId) (type : ValueType) {rest : List Action} (hrest : WellNested rest) :
      WellNested (.allocate node type :: rest)
  | scope {inner rest : List Action} (hinner : WellNested inner) (hrest : WellNested rest) :
      WellNested (.push :: inner ++ .pop :: rest)

/-- How many scopes are open after some actions if `n` are open before; none if the actions close a
scope that is not among these. -/
def level (n : Nat) : List Action → Option Nat
  | [] => some n
  | .push :: actions => level (n + 1) actions
  | .allocate _ _ :: actions => level n actions
  | .pop :: actions =>
    match n with
    | 0 => none
    | m + 1 => level m actions

/-- The variables that some actions hand out, one after the other. -/
def allocated (t : SymbolTable) : List Action → List Symbol
  | [] => []
  | .allocate node type :: actions =>
    (t.allocate node type).1 :: allocated (t.allocate node type).2 actions
  | .push :: actions => allocated t.push actions
  | .pop :: actions => allocated t.pop actions

/-! ### Counting the open scopes -/

/-- The actions after some others start where these end. -/
lemma level_append {n m : Nat} {actions : List Action} (h : level n actions = some m)
    (rest : List Action) : level n (actions ++ rest) = level m rest := by
  induction actions generalizing n with
  | nil =>
    obtain rfl := Option.some.inj h
    rfl
  | cons action actions ih =>
    cases action with
    | push => exact ih h
    | allocate node type => exact ih h
    | pop =>
      cases n with
      | zero => cases h
      | succ n => exact ih h

/-- Well nested actions leave as many scopes open as there were before. -/
lemma WellNested.level_eq {actions : List Action} (h : WellNested actions) (n : Nat) :
    level n actions = some n := by
  induction h generalizing n with
  | nil => rfl
  | allocate node type _ ih => exact ih n
  | @scope inner rest _ _ ihinner ihrest =>
    calc level n (.push :: inner ++ .pop :: rest)
        = level (n + 1) (inner ++ .pop :: rest) := rfl
      _ = level (n + 1) (.pop :: rest) := level_append (ihinner (n + 1)) _
      _ = some n := ihrest n

/-- One well nested part after the other is well nested. -/
lemma WellNested.append {actions rest : List Action} (h : WellNested actions)
    (hrest : WellNested rest) : WellNested (actions ++ rest) := by
  induction h with
  | nil => exact hrest
  | allocate node type _ ih => exact ih.allocate node type
  | @scope inner later hinner _ _ ih =>
    rw [List.append_assoc, List.cons_append]
    exact hinner.scope ih

/-- Well nested parts with `n` actions between them that close a scope. -/
def Closes : Nat → List Action → Prop
  | 0, actions => WellNested actions
  | n + 1, actions =>
    ∃ inner rest, actions = inner ++ .pop :: rest ∧ WellNested inner ∧ Closes n rest

/-- A well nested part in front becomes a piece of the first part. -/
lemma Closes.append_left {n : Nat} {before actions : List Action} (h : Closes n actions)
    (hbefore : WellNested before) : Closes n (before ++ actions) := by
  cases n with
  | zero => exact hbefore.append h
  | succ n =>
    obtain ⟨inner, rest, rfl, hinner, hrest⟩ := h
    exact ⟨before ++ inner, rest, by rw [List.append_assoc], hbefore.append hinner, hrest⟩

/-- Actions after which all of `n` scopes are closed close each of them between well nested
parts. -/
lemma closes_of_level {n : Nat} {actions : List Action} (h : level n actions = some 0) :
    Closes n actions := by
  induction actions generalizing n with
  | nil =>
    obtain rfl : n = 0 := Option.some.inj h
    exact WellNested.nil
  | cons action actions ih =>
    cases action with
    | allocate node type => exact (ih h).append_left (WellNested.nil.allocate node type)
    | push =>
      -- the first scope that is closed is the one that has just been opened
      obtain ⟨inner, rest, rfl, hinner, hrest⟩ := ih h
      have hscope := hrest.append_left (hinner.scope .nil)
      rwa [List.append_assoc] at hscope
    | pop =>
      cases n with
      | zero => cases h
      | succ n => exact ⟨[], actions, rfl, .nil, ih h⟩

/-- Actions are well nested just if they close all the scopes that they open and no others. -/
theorem wellNested_iff_level {actions : List Action} :
    WellNested actions ↔ level 0 actions = some 0 :=
  ⟨fun h => h.level_eq 0, closes_of_level⟩

instance : DecidablePred WellNested := fun _ => decidable_of_iff _ wellNested_iff_level.symm

/-! ### Blocks -/

/-- The table after some actions and then others. -/
lemma run_append (t : SymbolTable) (actions rest : List Action) :
    t.run (actions ++ rest) = (t.run actions).run rest :=
  List.foldl_append

/-- Well nested actions change the innermost scope and no other one. -/
lemma WellNested.exists_scopes_run {actions : List Action} (h : WellNested actions)
    (t : SymbolTable) {scope : Scope} {outer : List Scope} (ht : t.scopes = scope :: outer) :
    ∃ scope', (t.run actions).scopes = scope' :: outer := by
  induction h generalizing t scope outer with
  | nil => exact ⟨scope, ht⟩
  | allocate node type _ ih =>
    obtain ⟨scope', hscope'⟩ := t.exists_scopes_allocate node type
    rw [ht] at hscope'
    exact ih _ hscope'
  | @scope inner rest _ _ ihinner ihrest =>
    -- inside the new scope all of `t` lies further out, and closing that scope gives it back
    obtain ⟨scope', hinner⟩ := ihinner t.push rfl
    have hpop : ((t.push.run inner).pop).scopes = scope :: outer := by
      unfold pop
      rw [hinner, List.tail_cons, ht]
    obtain ⟨scope'', hrest⟩ := ihrest _ hpop
    refine ⟨scope'', ?_⟩
    rw [run_append]
    exact hrest

/-- A block gives the table back. -/
lemma WellNested.run_block {inner : List Action} (h : WellNested inner) (t : SymbolTable) :
    t.run (.push :: inner ++ [.pop]) = t := by
  obtain ⟨scope, hscope⟩ := h.exists_scopes_run t.push rfl
  have hpop : (t.push.run inner).pop = t := by
    unfold pop
    rw [hscope, List.tail_cons]
  rw [run_append]
  exact hpop

/-- After a block the table is the one before it: as many scopes are open and as many variables are
visible, every name and every node leads to what it led to, and whatever is done later hands out the
same variables and comes to the same table. -/
theorem block_leaves_no_trace (t : SymbolTable) (inner : List Action) (h : WellNested inner) :
    let t' := t.run (.push :: inner ++ [.pop])
    t' = t ∧ t'.depth = t.depth ∧ t'.size = t.size ∧
      (∀ name, t'.lookup name = t.lookup name) ∧
      (∀ node, t'.lookupNode node = t.lookupNode node) ∧
      ∀ later, t'.allocated later = t.allocated later ∧ t'.run later = t.run later := by
  intro t'
  have hback : t' = t := h.run_block t
  rw [hback]
  exact ⟨rfl, rfl, rfl, fun _ => rfl, fun _ => rfl, fun _ => ⟨rfl, rfl⟩⟩

/-- Inside the block a node gets a variable that shadows an outer one, and scopes are opened two
deep.  After the block the outer variable is found again and the numbers of the inner ones are
free, and on a table without scopes no scope is left behind. -/
theorem block_leaves_no_trace_shadowed :
    let t : SymbolTable := empty.run [.push, .allocate 7 .vec3]
    let inner : List Action := [.allocate 7 .vec3, .push, .push, .allocate 2 .vec3, .pop,
      .allocate 7 .float, .pop, .push, .pop]
    WellNested inner ∧
      (t.push.run inner).lookupNode 7 = some ⟨.vec3, "vec3_1", 7⟩ ∧
      (t.run (.push :: inner ++ [.pop])).lookupNode 7 = some ⟨.vec3, "vec3_0", 7⟩ ∧
      (t.run (.push :: inner ++ [.pop])).allocated [.allocate 2 .vec3, .allocate 2 .float] =
        [⟨.vec3, "vec3_1", 2⟩, ⟨.float, "float_0", 2⟩] ∧
      (empty.run (.push :: inner ++ [.pop])).depth = 0 := by
  intro t inner
  have hnested : WellNested inner := by decide
  obtain ⟨_, _, _, _, hnode, hlater⟩ := block_leaves_no_trace t inner hnested
  obtain ⟨_, hdepth, _⟩ := block_leaves_no_trace empty inner hnested
  refine ⟨hnested, by cbv, ?_, ?_, ?_⟩
  · rw [hnode]
    cbv
  · rw [(hlater _).1]
    cbv
  · rw [hdepth]
    rfl

end SymbolTable

end MaterialGraph
