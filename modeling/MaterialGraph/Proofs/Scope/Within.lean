import MaterialGraph.Proofs.Scope.Nesting

/-!
# Inside a scope

Actions that do not close the innermost scope of a host take place inside it.  How many scopes they
have opened there is counted by `SymbolTable.level`.  An action changes the innermost scope only, so
the scope of the host can get more variables but loses none, and everything that was visible from it
stays visible (`Within.run`).  A new name differs from all visible ones, hence from those of the
host (`Within.name_notMem_of_mem_allocated`), however often numbers are used again further inside.
-/

namespace MaterialGraph

namespace SymbolTable

/-- The scopes around the `n` innermost ones. -/
def around (t : SymbolTable) (n : Nat) : SymbolTable :=
  ⟨t.scopes.drop n⟩

/-- In the table `n` scopes are open inside what was the innermost scope of the host, and all that
was visible from that scope still is. -/
structure Within (host : SymbolTable) (n : Nat) (t : SymbolTable) : Prop where
  depth_eq : t.depth = host.depth + n
  visible_around : host.visible <:+ (t.around n).visible

/-- What is visible from a scope further out is visible. -/
lemma visible_around_suffix (t : SymbolTable) (n : Nat) : (t.around n).visible <:+ t.visible := by
  refine ⟨(t.scopes.take n).flatMap Scope.symbols, ?_⟩
  unfold visible around
  rw [← List.flatMap_append, List.take_append_drop]

/-- Closing a scope leaves the scopes around it. -/
lemma around_pop (t : SymbolTable) (n : Nat) : t.pop.around n = t.around (n + 1) := by
  unfold pop around
  rw [List.drop_tail]

/-- A new variable leaves the scopes around the innermost one alone. -/
lemma around_allocate (t : SymbolTable) (node : NodeId) (type : ValueType) (n : Nat) :
    (t.allocate node type).2.around (n + 1) = t.around (n + 1) := by
  obtain ⟨scope, hscopes⟩ := t.exists_scopes_allocate node type
  unfold around
  rw [hscopes, List.drop_succ_cons, List.drop_tail]

/-- Closing a scope leaves one less open, if there was one. -/
lemma depth_pop (t : SymbolTable) : t.pop.depth = t.depth - 1 :=
  List.length_tail

/-- A new variable needs no new scope if one is open. -/
lemma depth_allocate {t : SymbolTable} (hopen : 0 < t.depth) (node : NodeId) (type : ValueType) :
    (t.allocate node type).2.depth = t.depth := by
  obtain ⟨scope, hscopes⟩ := t.exists_scopes_allocate node type
  unfold depth at *
  rw [hscopes, List.length_cons, List.length_tail]
  omega

/-- The first of some actions leads to a number of open scopes, with which the others start. -/
lemma exists_level_of_cons {n m : Nat} {action : Action} {actions : List Action}
    (h : level n (action :: actions) = some m) :
    ∃ k, level n [action] = some k ∧ level k actions = some m := by
  cases action with
  | push => exact ⟨n + 1, rfl, h⟩
  | allocate node type => exact ⟨n, rfl, h⟩
  | pop =>
    cases n with
    | zero => cases h
    | succ n => exact ⟨n, rfl, h⟩

/-- In a sound table a new variable has a name that no visible one has. -/
lemma Sound.name_allocate_notMem {t : SymbolTable} (h : t.Sound) (node : NodeId)
    (type : ValueType) : (t.allocate node type).1.name ∉ t.visible.map Symbol.name := by
  rw [h.allocate_symbol_name]
  exact h.numbered.nameOf_notMem type

namespace Within

variable {host t : SymbolTable} {n m : Nat}

/-- A table is inside itself. -/
lemma refl (host : SymbolTable) : Within host 0 host :=
  ⟨rfl, List.suffix_refl _⟩

/-- What was visible in the host is visible inside it. -/
lemma visible_suffix (h : Within host n t) : host.visible <:+ t.visible :=
  h.visible_around.trans (t.visible_around_suffix n)

/-- Opening a scope goes one scope further inside. -/
lemma push (h : Within host n t) : Within host (n + 1) t.push where
  depth_eq := congrArg Nat.succ h.depth_eq
  visible_around := h.visible_around

/-- Closing a scope that was opened inside the host stays inside. -/
lemma pop (h : Within host (n + 1) t) : Within host n t.pop where
  depth_eq := by
    rw [depth_pop, h.depth_eq]
    rfl
  visible_around := by
    rw [around_pop]
    exact h.visible_around

/-- A new variable stays inside. -/
lemma allocate (h : Within host n t) (hopen : 0 < host.depth) (node : NodeId) (type : ValueType) :
    Within host n (t.allocate node type).2 where
  depth_eq := by
    rw [depth_allocate (by rw [h.depth_eq]; omega), h.depth_eq]
  visible_around := by
    cases n with
    | zero =>
      -- the variable is in the scope of the host, before all that was visible there
      have hvisible : host.visible <:+ (t.allocate node type).2.visible := by
        rw [visible_allocate]
        exact h.visible_suffix.trans (List.suffix_cons _ _)
      exact hvisible
    | succ n =>
      rw [around_allocate]
      exact h.visible_around

/-- An action that does not close the host's scope stays inside. -/
lemma act (h : Within host n t) (hopen : 0 < host.depth) {action : Action}
    (hlevel : level n [action] = some m) : Within host m (t.act action) := by
  cases action with
  | push =>
    obtain rfl := Option.some.inj hlevel
    exact h.push
  | allocate node type =>
    obtain rfl := Option.some.inj hlevel
    exact h.allocate hopen node type
  | pop =>
    cases n with
    | zero => cases hlevel
    | succ n =>
      obtain rfl := Option.some.inj hlevel
      exact h.pop

/-- Actions that do not close the host's scope stay inside. -/
lemma run (h : Within host n t) (hopen : 0 < host.depth) {actions : List Action}
    (hlevel : level n actions = some m) : Within host m (t.run actions) := by
  induction actions generalizing n t with
  | nil =>
    obtain rfl := Option.some.inj hlevel
    exact h
  | cons action actions ih =>
    obtain ⟨k, hfirst, hrest⟩ := exists_level_of_cons hlevel
    exact ih (h.act hopen hfirst) hrest

/-- Variables that are handed out inside the host have none of the names that were visible in it. -/
lemma name_notMem_of_mem_allocated (h : Within host n t) (hopen : 0 < host.depth) (ht : t.Sound)
    {actions : List Action} (hlevel : level n actions = some m) {s : Symbol}
    (hs : s ∈ t.allocated actions) : s.name ∉ host.visible.map Symbol.name := by
  induction actions generalizing n t with
  | nil => simp [allocated] at hs
  | cons action actions ih =>
    obtain ⟨k, hfirst, hrest⟩ := exists_level_of_cons hlevel
    have hlater : s ∈ (t.act action).allocated actions → s.name ∉ host.visible.map Symbol.name :=
      ih (h.act hopen hfirst) (ht.act action) hrest
    cases action with
    | push => exact hlater hs
    | pop => exact hlater hs
    | allocate node type =>
      rcases List.mem_cons.mp hs with rfl | hs
      · intro hmem
        have hvisible := h.visible_suffix.subset
        exact ht.name_allocate_notMem node type (List.map_subset _ hvisible hmem)
      · exact hlater hs

end Within

/-! ### Declaring variables one after the other -/

/-- The actions that declare a variable for each of some nodes and types. -/
def declared (requests : List (NodeId × ValueType)) : List Action :=
  requests.map fun v => .allocate v.1 v.2

/-- Declaring variables opens and closes no scope. -/
lemma level_declared (requests : List (NodeId × ValueType)) (n : Nat) :
    level n (declared requests) = some n := by
  induction requests with
  | nil => rfl
  | cons v requests ih => exact ih

/-- The variables that are declared are visible, the latest first. -/
lemma visible_run_declared (t : SymbolTable) (requests : List (NodeId × ValueType)) :
    (t.run (declared requests)).visible =
      (t.allocated (declared requests)).reverse ++ t.visible := by
  induction requests generalizing t with
  | nil => rfl
  | cons v requests ih =>
    calc (t.run (declared (v :: requests))).visible
        = ((t.allocate v.1 v.2).2.run (declared requests)).visible := rfl
      _ = ((t.allocate v.1 v.2).2.allocated (declared requests)).reverse ++
            ((t.allocate v.1 v.2).1 :: t.visible) := by rw [ih, visible_allocate]
      _ = (t.allocated (declared (v :: requests))).reverse ++ t.visible := by
            rw [List.append_cons, ← List.reverse_cons]
            rfl

end SymbolTable

end MaterialGraph
