import Mathlib.Data.Set.Card
import MaterialGraph.Proofs.Scope.Allocation

/-!
# Histories of scopes

Scopes are opened and closed and variables are handed out in any order (`SymbolTable.Action`,
`SymbolTable.run`).  The counters of a scope are copied when a scope is opened inside it and lost
when it is closed, and still no name is ever given to two visible variables.

The invariant is `SymbolTable.Sound`.  Read from the latest visible variable to the oldest, each
variable has for its number the count of older variables of its type (`Numbered`), and every open
scope goes on with the counts of what is visible from it.  Every action keeps this (`Sound.act`),
so every history does (`sound_run`).  Closing a scope takes variables away at the late end, which is
why numbers can be used again and names stay different.
-/

namespace MaterialGraph

/-- Something that can be done to a table. -/
inductive SymbolTable.Action where
  | push
  | pop
  | allocate (node : NodeId) (type : ValueType)
  deriving DecidableEq

namespace SymbolTable

/-- The table after an action. -/
def act (t : SymbolTable) : Action → SymbolTable
  | .push => t.push
  | .pop => t.pop
  | .allocate node type => (t.allocate node type).2

/-- The table after some actions, one after the other. -/
def run (t : SymbolTable) (actions : List Action) : SymbolTable :=
  actions.foldl act t

variable (t : SymbolTable) (node : NodeId) (type : ValueType)

/-! ### Actions and what is visible -/

/-- Looking a name up means searching what is visible, from the latest variable on. -/
lemma lookup_eq_find? (name : String) : t.lookup name = t.visible.find? fun s => s.name == name :=
  List.find?_flatMap.symm

/-- Looking a node up means searching what is visible, from the latest variable on. -/
lemma lookupNode_eq_find? : t.lookupNode node = t.visible.find? fun s => s.node == node :=
  List.find?_flatMap.symm

/-- Among variables with different names, searching a name finds the one variable that has it. -/
lemma find?_name_eq_some_iff {symbols : List Symbol} (hnames : (symbols.map Symbol.name).Nodup)
    {name : String} {s : Symbol} :
    (symbols.find? fun x => x.name == name) = some s ↔ s ∈ symbols ∧ s.name = name := by
  constructor
  · intro hs
    have hname : s.name = name := by simpa using List.find?_some hs
    exact ⟨List.mem_of_find?_eq_some hs, hname⟩
  · rintro ⟨hs, rfl⟩
    have hsome : (symbols.find? fun x => x.name == s.name).isSome := by
      rw [List.find?_isSome]
      exact ⟨s, hs, by simp⟩
    obtain ⟨found, hfound⟩ := Option.isSome_iff_exists.mp hsome
    have hname : found.name = s.name := by simpa using List.find?_some hfound
    rw [hfound, List.inj_on_of_nodup_map hnames (List.mem_of_find?_eq_some hfound) hs hname]

/-- Opening a scope does not change what is visible. -/
@[simp] lemma visible_push : t.push.visible = t.visible :=
  rfl

/-- A new scope goes on with the numbers of the one around it. -/
@[simp] lemma counters_push : t.push.counters = t.counters :=
  rfl

/-- Closing a scope takes away the latest variables. -/
lemma visible_pop_suffix : t.pop.visible <:+ t.visible := by
  unfold pop visible
  cases t.scopes with
  | nil => exact List.suffix_refl _
  | cons scope outer => exact List.suffix_append _ _

/-- A new variable is the latest of those that are visible. -/
@[simp] lemma visible_allocate :
    (t.allocate node type).2.visible = (t.allocate node type).1 :: t.visible := by
  unfold allocate visible
  cases t.scopes <;> rfl

/-- A new variable goes into the innermost scope and leaves those around it alone. -/
lemma exists_scopes_allocate :
    ∃ scope, (t.allocate node type).2.scopes = scope :: t.scopes.tail := by
  unfold allocate
  cases t.scopes with
  | nil => exact ⟨_, rfl⟩
  | cons scope outer => exact ⟨_, rfl⟩

/-! ### Numbers -/

/-- Each variable of a list that starts with the latest has for its number the count of the older
variables of its type. -/
inductive Numbered : List Symbol → Prop where
  | nil : Numbered []
  | cons {s : Symbol} {older : List Symbol}
      (hname : s.name = nameOf s.type (older.countP fun x => x.type = s.type))
      (holder : Numbered older) : Numbered (s :: older)

namespace Numbered

variable {symbols : List Symbol}

/-- Forgetting the latest variables does not change the numbers of the others. -/
lemma of_suffix {older : List Symbol} (h : Numbered symbols) (hsuffix : older <:+ symbols) :
    Numbered older := by
  induction h with
  | nil =>
    rw [List.suffix_nil.mp hsuffix]
    exact nil
  | cons hname hrest ih =>
    rcases List.suffix_cons_iff.mp hsuffix with rfl | hsuffix
    · exact cons hname hrest
    · exact ih hsuffix

/-- A variable of a type has a number below the count of variables of that type. -/
lemma exists_number (h : Numbered symbols) {s : Symbol} (hs : s ∈ symbols) :
    ∃ k, k < (symbols.countP fun x => x.type = s.type) ∧ s.name = nameOf s.type k := by
  induction h with
  | nil => simp at hs
  | @cons latest older hname _ ih =>
    rw [List.countP_cons]
    rcases List.mem_cons.mp hs with rfl | hs
    · exact ⟨_, by simp, hname⟩
    · obtain ⟨k, hk, hname⟩ := ih hs
      exact ⟨k, Nat.lt_of_lt_of_le hk (Nat.le_add_right _ _), hname⟩

/-- The next name of a type is not in use. -/
lemma nameOf_notMem (h : Numbered symbols) (type : ValueType) :
    nameOf type (symbols.countP fun x => x.type = type) ∉ symbols.map Symbol.name := by
  intro hmem
  obtain ⟨s, hs, hname⟩ := List.mem_map.mp hmem
  obtain ⟨k, hk, hnumber⟩ := h.exists_number hs
  have hsame : s.type = type ∧ k = symbols.countP fun x => x.type = type := by
    rw [← nameOf_inj, ← hnumber, hname]
  rw [hsame.1] at hk
  exact absurd hsame.2 (Nat.ne_of_lt hk)

/-- No name is in use twice. -/
lemma nodup_names (h : Numbered symbols) : (symbols.map Symbol.name).Nodup := by
  induction h with
  | nil => exact List.nodup_nil
  | cons hname holder ih =>
    rw [List.map_cons, List.nodup_cons, hname]
    exact ⟨holder.nameOf_notMem _, ih⟩

end Numbered

/-! ### The invariant -/

/-- The visible variables are numbered, and every open scope goes on with the counts of what is
visible from it. -/
structure Sound (t : SymbolTable) : Prop where
  numbered : Numbered t.visible
  counted : ∀ outer, outer <:+ t.scopes → ∀ type, (mk outer).counters.get type =
    (mk outer).visible.countP fun s => s.type = type

/-- The table without scopes is sound. -/
lemma sound_empty : empty.Sound where
  numbered := Numbered.nil
  counted := by
    intro outer houter type
    rw [List.suffix_nil.mp houter]
    cases type <;> rfl

namespace Sound

variable {t : SymbolTable}

/-- The next number of a type is the count of visible variables of that type. -/
lemma counters_get (h : t.Sound) (type : ValueType) :
    t.counters.get type = t.visible.countP fun s => s.type = type :=
  h.counted t.scopes (List.suffix_refl _) type

/-- A new variable gets the first number that is not in use. -/
lemma allocate_symbol_name (h : t.Sound) (node : NodeId) (type : ValueType) :
    (t.allocate node type).1.name = nameOf type (t.visible.countP fun s => s.type = type) := by
  rw [allocate_symbol, h.counters_get]

/-- Opening a scope keeps a table sound. -/
lemma push (h : t.Sound) : t.push.Sound where
  numbered := h.numbered
  counted := by
    intro outer houter type
    rcases List.suffix_cons_iff.mp houter with rfl | houter
    · exact h.counters_get type
    · exact h.counted outer houter type

/-- Closing a scope keeps a table sound. -/
lemma pop (h : t.Sound) : t.pop.Sound where
  numbered := h.numbered.of_suffix t.visible_pop_suffix
  counted := fun outer houter => h.counted outer (houter.trans (List.tail_suffix _))

/-- A new variable keeps a table sound. -/
lemma allocate (h : t.Sound) (node : NodeId) (type : ValueType) :
    (t.allocate node type).2.Sound where
  numbered := by
    rw [visible_allocate]
    refine Numbered.cons ?_ h.numbered
    rw [h.allocate_symbol_name, allocate_symbol]
  counted := by
    intro outer houter other
    obtain ⟨scope, hscopes⟩ := t.exists_scopes_allocate node type
    rw [hscopes] at houter
    rcases List.suffix_cons_iff.mp houter with rfl | houter
    · -- the innermost scope has counted the new variable
      have hcount : (t.allocate node type).2.counters.get other =
          (t.allocate node type).2.visible.countP fun s => s.type = other := by
        rw [counters_allocate, Counters.get_bump, visible_allocate, List.countP_cons,
          h.counters_get, allocate_symbol]
        simp only [decide_eq_true_eq, eq_comm (a := type)]
      rwa [← hscopes]
    · exact h.counted outer (houter.trans (List.tail_suffix _)) other

/-- Every action keeps a table sound. -/
lemma act (h : t.Sound) (action : Action) : (t.act action).Sound := by
  cases action with
  | push => exact h.push
  | pop => exact h.pop
  | allocate node type => exact h.allocate node type

/-- Every history keeps a table sound. -/
lemma run (h : t.Sound) (actions : List Action) : (t.run actions).Sound := by
  induction actions generalizing t with
  | nil => exact h
  | cons action actions ih => exact ih (h.act action)

/-- A name is found just if a visible variable has it, and then that variable is found. -/
lemma lookup_eq_some_iff (h : t.Sound) {name : String} {s : Symbol} :
    t.lookup name = some s ↔ s ∈ t.visible ∧ s.name = name := by
  rw [lookup_eq_find?]
  exact find?_name_eq_some_iff h.numbered.nodup_names

/-- A name is found just if it is the name of a visible variable. -/
lemma isSome_lookup_iff (h : t.Sound) {name : String} :
    (t.lookup name).isSome ↔ name ∈ t.visible.map Symbol.name := by
  rw [Option.isSome_iff_exists, List.mem_map]
  exact exists_congr fun s => h.lookup_eq_some_iff

/-- As many names are found as there are visible variables. -/
lemma encard_names (h : t.Sound) : {name | (t.lookup name).isSome}.encard = t.size := by
  have hnames : {name | (t.lookup name).isSome} =
      ((t.visible.map Symbol.name).toFinset : Set String) := by
    ext name
    simp [h.isSome_lookup_iff]
  rw [hnames, Set.encard_coe_eq_coe_finsetCard,
    List.toFinset_card_of_nodup h.numbered.nodup_names, List.length_map]
  rfl

end Sound

/-- Every history of a table starts and stays sound. -/
lemma sound_run (actions : List Action) : (empty.run actions).Sound :=
  sound_empty.run actions

/-- After any history, a new variable is named after its type and the count of visible variables of
that type.  The name was not in use; it and the node then lead to the new variable, and one more
variable is visible.  So no two visible variables have one name, and there are as many names that
lead to a variable as there are visible variables. -/
theorem allocate_fresh (actions : List Action) (node : NodeId) (type : ValueType) :
    let t := empty.run actions
    let symbol := (t.allocate node type).1
    let t' := (t.allocate node type).2
    symbol.type = type ∧ symbol.node = node ∧
      symbol.name =
        type.name ++ "_" ++ Nat.repr (t.visible.countP fun s => s.type = type) ∧
      t.lookup symbol.name = none ∧
      t'.lookup symbol.name = some symbol ∧ t'.lookupNode node = some symbol ∧
      t'.size = t.size + 1 ∧
      (t.visible.map Symbol.name).Nodup ∧
      (∀ s, s ∈ t.visible ↔ t.lookup s.name = some s) ∧
      {name | (t.lookup name).isSome}.encard = t.size := by
  intro t symbol t'
  have hsound : t.Sound := sound_run actions
  have hname : symbol.name = nameOf type (t.visible.countP fun s => s.type = type) :=
    hsound.allocate_symbol_name node type
  have hfresh : symbol.name ∉ t.visible.map Symbol.name := by
    rw [hname]
    exact hsound.numbered.nameOf_notMem type
  have hnone : t.lookup symbol.name = none := by
    rw [← Option.not_isSome_iff_eq_none, hsound.isSome_lookup_iff]
    exact hfresh
  have hfound : t'.lookup symbol.name = some symbol := by
    rw [(hsound.allocate node type).lookup_eq_some_iff, visible_allocate]
    exact ⟨List.mem_cons_self, rfl⟩
  have hsize : t'.size = t.size + 1 := by
    unfold size
    rw [visible_allocate, List.length_cons]
  refine ⟨by simp [symbol], by simp [symbol], hname, hnone, hfound, by simp [t', symbol], hsize,
    hsound.numbered.nodup_names, fun s => ?_, hsound.encard_names⟩
  rw [hsound.lookup_eq_some_iff, and_iff_left rfl]

end SymbolTable

end MaterialGraph
