import Mathlib
import MaterialGraph.Proofs.Scope.History

/-!
# Scopes as plain blocks

The simplest description of nested scopes has no counters: a stack of blocks, each a list of the
variables allocated in it (`Blocks`).  The number of a new variable is the count of the variables of
its type that are in any block.

A table is such a stack once its counters are forgotten (`SymbolTable.blocks`).  The actions on
tables and on stacks agree (`Sound.blocks_act`), and so do their histories.  What a table answers
can then be read off the blocks (`run_refines_blocks`): a name leads to the only variable with that
name, and a node leads to its latest variable in the innermost block that has one
(`Blocks.Latest`).

The searches may also be done by two maps for each block, from nodes to names and from names to
variables (`Blocks.byNode`, `Blocks.byName`).  They stay in step: the name that the first map has
for a node leads to a variable of that node.  The second map finds names by itself, and since it has
one entry for each variable of the block, its size counts them.
-/

namespace MaterialGraph

/-- The open scopes, the innermost first, each as the list of variables allocated in it in order. -/
abbrev Blocks := List (List Symbol)

namespace Blocks

/-- The variable that is allocated next: its number is the count of variables of its type. -/
def next (b : Blocks) (node : NodeId) (type : ValueType) : Symbol :=
  ⟨type, SymbolTable.nameOf type (b.flatten.countP fun s => s.type = type), node⟩

/-- The blocks after an action.  A variable goes to the end of the innermost block, and into a block
of its own if there is none. -/
def act (b : Blocks) : SymbolTable.Action → Blocks
  | .push => [] :: b
  | .pop => b.tail
  | .allocate node type => (b.headD [] ++ [b.next node type]) :: b.tail

/-- The blocks after some actions, one after the other. -/
def run (actions : List SymbolTable.Action) : Blocks :=
  actions.foldl act []

/-- A variable is the latest one of a node in the innermost block that has one of the node. -/
def Latest (b : Blocks) (node : NodeId) (s : Symbol) : Prop :=
  ∃ inner earlier later outer, b = inner ++ (earlier ++ s :: later) :: outer ∧ s.node = node ∧
    (∀ x ∈ later, x.node ≠ node) ∧ ∀ block ∈ inner, ∀ x ∈ block, x.node ≠ node

/-- The map from names to variables that allocating a block's variables in order gives. -/
def byName (block : List Symbol) : Std.HashMap String Symbol :=
  Std.HashMap.ofList (block.map fun s => (s.name, s))

/-- The map from nodes to names that allocating a block's variables in order gives. -/
def byNode (block : List Symbol) : Std.HashMap NodeId String :=
  Std.HashMap.ofList (block.map fun s => (s.node, s.name))

/-! ### Searching blocks -/

/-- Searching a block from its end finds the latest variable of a node. -/
lemma find?_reverse_eq_some_iff {block : List Symbol} {node : NodeId} {s : Symbol} :
    (block.reverse.find? fun x => x.node == node) = some s ↔
      ∃ earlier later, block = earlier ++ s :: later ∧ s.node = node ∧
        ∀ x ∈ later, x.node ≠ node := by
  rw [List.find?_eq_some_iff_append]
  constructor
  · rintro ⟨hnode, later, earlier, hsplit, hlater⟩
    refine ⟨earlier.reverse, later.reverse, ?_, by simpa using hnode, ?_⟩
    · rw [← List.reverse_reverse block, hsplit]
      simp
    · intro x hx
      simpa using hlater x (List.mem_reverse.mp hx)
  · rintro ⟨earlier, later, rfl, hnode, hlater⟩
    refine ⟨by simpa using hnode, later.reverse, earlier.reverse, by simp, ?_⟩
    intro x hx
    simpa using hlater x (List.mem_reverse.mp hx)

/-- Searching every block from its end, the innermost block first, finds the latest variable. -/
lemma findSome?_eq_some_iff {b : Blocks} {node : NodeId} {s : Symbol} :
    (b.findSome? fun block => block.reverse.find? fun x => x.node == node) = some s ↔
      b.Latest node s := by
  have hnone : ∀ block : List Symbol, (block.reverse.find? fun x => x.node == node) = none ↔
      ∀ x ∈ block, x.node ≠ node := by
    intro block
    simp [List.find?_eq_none]
  rw [List.findSome?_eq_some_iff]
  constructor
  · rintro ⟨inner, block, outer, rfl, hfound, hinner⟩
    obtain ⟨earlier, later, rfl, hnode, hlater⟩ := find?_reverse_eq_some_iff.mp hfound
    exact ⟨inner, earlier, later, outer, rfl, hnode, hlater,
      fun block hmem => (hnone block).mp (hinner block hmem)⟩
  · rintro ⟨inner, earlier, later, outer, rfl, hnode, hlater, hinner⟩
    exact ⟨inner, earlier ++ s :: later, outer, rfl,
      find?_reverse_eq_some_iff.mpr ⟨earlier, later, rfl, hnode, hlater⟩,
      fun block hmem => (hnone block).mpr (hinner block hmem)⟩

/-- The latest variable of a node belongs to the node and is in one of the blocks. -/
lemma Latest.mem_flatten {b : Blocks} {node : NodeId} {s : Symbol} (h : b.Latest node s) :
    s ∈ b.flatten ∧ s.node = node := by
  obtain ⟨inner, earlier, later, outer, rfl, hnode, _, _⟩ := h
  exact ⟨by simp, hnode⟩

/-- Of the entries that a map is made from, the last one with a key counts. -/
lemma getElem?_ofList {κ β : Type} [BEq κ] [Hashable κ] [LawfulBEq κ] [LawfulHashable κ]
    (key : Symbol → κ) (value : Symbol → β) (block : List Symbol) (k : κ) :
    (Std.HashMap.ofList (block.map fun s => (key s, value s)))[k]? =
      (block.reverse.find? fun s => key s == k).map value := by
  rw [Std.HashMap.ofList_eq_insertMany_empty, Std.HashMap.getElem?_insertMany_list,
    Std.HashMap.getElem?_empty, Option.or_none, List.findSomeRev?_eq_findSome?_reverse,
    ← List.map_reverse, List.findSome?_map]
  induction block.reverse with
  | nil => rfl
  | cons s rest ih =>
    by_cases hkey : key s = k
    · simp [hkey]
    · simpa [List.findSome?_cons, List.find?_cons, hkey] using ih

/-- The first map leads to the name of the latest variable of a node. -/
lemma getElem?_byNode (block : List Symbol) (node : NodeId) :
    (byNode block)[node]? = (block.reverse.find? fun s => s.node == node).map Symbol.name :=
  getElem?_ofList Symbol.node Symbol.name block node

/-- The second map leads to the latest variable with a name. -/
lemma getElem?_byName (block : List Symbol) (name : String) :
    (byName block)[name]? = block.reverse.find? fun s => s.name == name := by
  rw [← Option.map_id' (x := block.reverse.find? fun s => s.name == name)]
  exact getElem?_ofList Symbol.name (fun s => s) block name

/-- The second map has an entry for every variable if no two of them share a name. -/
lemma size_byName {block : List Symbol} (hnames : (block.map Symbol.name).Nodup) :
    (byName block).size = block.length := by
  have hkeys : (block.map fun s => (s.name, s)).Pairwise fun x y => (x.1 == y.1) = false := by
    rw [List.pairwise_map]
    exact (List.pairwise_map.mp hnames).imp fun hne => by simpa using hne
  rw [byName, Std.HashMap.size_ofList hkeys, List.length_map]

/-- Searches of the blocks agree if they do in each block. -/
lemma findSome?_congr_mem {β : Type} {b : Blocks} {f g : List Symbol → Option β}
    (h : ∀ block ∈ b, f block = g block) : b.findSome? f = b.findSome? g := by
  rw [← List.head?_filterMap, ← List.head?_filterMap, List.filterMap_congr h]

end Blocks

namespace SymbolTable

/-! ### From tables to blocks -/

/-- The blocks of a table: its scopes without their counters. -/
def blocks (t : SymbolTable) : Blocks :=
  t.scopes.map fun scope => scope.symbols.reverse

/-- The blocks hold what is visible. -/
lemma flatten_blocks_perm (t : SymbolTable) : t.blocks.flatten.Perm t.visible := by
  unfold blocks visible
  induction t.scopes with
  | nil => exact List.Perm.refl _
  | cons scope outer ih =>
    rw [List.map_cons, List.flatten_cons, List.flatMap_cons]
    exact (List.reverse_perm _).append ih

/-- Opening a scope opens a block. -/
lemma blocks_push (t : SymbolTable) : t.push.blocks = [] :: t.blocks :=
  rfl

/-- Closing a scope drops the innermost block. -/
lemma blocks_pop (t : SymbolTable) : t.pop.blocks = t.blocks.tail :=
  List.map_tail

/-- A new variable goes to the end of the innermost block. -/
lemma blocks_allocate (t : SymbolTable) (node : NodeId) (type : ValueType) :
    (t.allocate node type).2.blocks =
      (t.blocks.headD [] ++ [(t.allocate node type).1]) :: t.blocks.tail := by
  unfold allocate blocks
  cases t.scopes with
  | nil => rfl
  | cons scope outer => simp

/-- A search of the scopes searches the blocks from their ends, the innermost block first. -/
lemma findSome?_scopes (t : SymbolTable) (p : Symbol → Bool) :
    (t.scopes.findSome? fun scope => scope.symbols.find? p) =
      t.blocks.findSome? fun block => block.reverse.find? p := by
  unfold blocks
  rw [List.findSome?_map]
  simp [Function.comp_def]

/-- Looking a node up searches the blocks from their ends, the innermost block first. -/
lemma lookupNode_eq_findSome? (t : SymbolTable) (node : NodeId) :
    t.lookupNode node =
      t.blocks.findSome? fun block => block.reverse.find? fun s => s.node == node :=
  t.findSome?_scopes _

/-- Looking a name up searches the blocks from their ends, the innermost block first. -/
lemma lookup_eq_findSome? (t : SymbolTable) (name : String) :
    t.lookup name =
      t.blocks.findSome? fun block => block.reverse.find? fun s => s.name == name :=
  t.findSome?_scopes _

namespace Sound

variable {t : SymbolTable}

/-- A table and its blocks agree on the variable that is allocated next. -/
lemma next_blocks (h : t.Sound) (node : NodeId) (type : ValueType) :
    t.blocks.next node type = (t.allocate node type).1 := by
  rw [allocate_symbol, h.counters_get, ← t.flatten_blocks_perm.countP_eq]
  rfl

/-- A table and its blocks agree on every action. -/
lemma blocks_act (h : t.Sound) (action : Action) : (t.act action).blocks = t.blocks.act action := by
  cases action with
  | push => exact t.blocks_push
  | pop => exact t.blocks_pop
  | allocate node type =>
    show (t.allocate node type).2.blocks = (t.blocks.headD [] ++ [t.blocks.next node type]) :: _
    rw [h.next_blocks, blocks_allocate]

/-- A table and its blocks agree on every history. -/
lemma blocks_run (h : t.Sound) (actions : List Action) :
    (t.run actions).blocks = actions.foldl Blocks.act t.blocks := by
  induction actions generalizing t with
  | nil => rfl
  | cons action actions ih =>
    rw [List.foldl_cons, ← h.blocks_act]
    exact ih (h.act action)

/-- No name is in the blocks twice. -/
lemma nodup_names_blocks (h : t.Sound) : (t.blocks.flatten.map Symbol.name).Nodup :=
  (t.flatten_blocks_perm.map Symbol.name).nodup_iff.mpr h.numbered.nodup_names

/-- No name is in a block twice. -/
lemma nodup_names_of_mem_blocks (h : t.Sound) {block : List Symbol} (hblock : block ∈ t.blocks) :
    (block.map Symbol.name).Nodup :=
  h.nodup_names_blocks.sublist ((List.sublist_flatten_of_mem hblock).map Symbol.name)

/-- The sizes of the second maps count what is visible. -/
lemma size_eq_sum_byName (h : t.Sound) :
    t.size = (t.blocks.map fun block => (Blocks.byName block).size).sum := by
  have hsizes : (t.blocks.map fun block => (Blocks.byName block).size) =
      t.blocks.map List.length :=
    List.map_congr_left fun block hblock => Blocks.size_byName (h.nodup_names_of_mem_blocks hblock)
  rw [hsizes, ← List.length_flatten, t.flatten_blocks_perm.length_eq]
  rfl

/-- The two maps of a block are in step: together they find the latest variable of a node. -/
lemma byNode_bind_byName (h : t.Sound) {block : List Symbol} (hblock : block ∈ t.blocks)
    (node : NodeId) :
    ((Blocks.byNode block)[node]?.bind fun name => (Blocks.byName block)[name]?) =
      block.reverse.find? fun s => s.node == node := by
  have hnames : (block.reverse.map Symbol.name).Nodup := by
    rw [List.map_reverse, List.nodup_reverse]
    exact h.nodup_names_of_mem_blocks hblock
  rw [Blocks.getElem?_byNode]
  cases hfound : block.reverse.find? fun s => s.node == node with
  | none => rfl
  | some s =>
    rw [Option.map_some, Option.bind_some, Blocks.getElem?_byName, find?_name_eq_some_iff hnames]
    exact ⟨List.mem_of_find?_eq_some hfound, rfl⟩

end Sound

/-- After any history, a table answers what the plain blocks say.  The next variable is theirs.  As
many scopes are open as there are blocks.  No name is in the blocks twice, and looking a name up
finds the variable that has it.  Looking a node up finds its latest variable in the innermost block
that has one, and nothing if no block has one; that variable belongs to the node and is found by its
name too.  The maps of the blocks give the same: a node is found through both of them, a name
through the second one, and the sizes of the second ones add up to the number of visible
variables. -/
theorem run_refines_blocks (actions : List Action) :
    let t := empty.run actions
    let b := Blocks.run actions
    (∀ node type, (t.allocate node type).1 = b.next node type) ∧
      t.depth = b.length ∧
      (b.flatten.map Symbol.name).Nodup ∧
      (∀ name s, t.lookup name = some s ↔ s ∈ b.flatten ∧ s.name = name) ∧
      (∀ node s, t.lookupNode node = some s ↔ b.Latest node s) ∧
      (∀ node, t.lookupNode node = none ↔ ∀ s ∈ b.flatten, s.node ≠ node) ∧
      (∀ node s, t.lookupNode node = some s → s.node = node ∧ t.lookup s.name = some s) ∧
      (∀ node, t.lookupNode node = b.findSome? fun block =>
        (Blocks.byNode block)[node]?.bind fun name => (Blocks.byName block)[name]?) ∧
      (∀ name, t.lookup name = b.findSome? fun block => (Blocks.byName block)[name]?) ∧
      t.size = (b.map fun block => (Blocks.byName block).size).sum := by
  intro t b
  have hsound : t.Sound := sound_run actions
  have hblocks : t.blocks = b := sound_empty.blocks_run actions
  have hmem : ∀ s, s ∈ b.flatten ↔ s ∈ t.visible := by
    intro s
    rw [← hblocks]
    exact t.flatten_blocks_perm.mem_iff
  have hlookup : ∀ name s, t.lookup name = some s ↔ s ∈ b.flatten ∧ s.name = name := by
    intro name s
    rw [hmem, hsound.lookup_eq_some_iff]
  have hlatest : ∀ node s, t.lookupNode node = some s ↔ b.Latest node s := by
    intro node s
    rw [lookupNode_eq_findSome?, hblocks, Blocks.findSome?_eq_some_iff]
  refine ⟨fun node type => ?_, ?_, ?_, hlookup, hlatest, fun node => ?_, fun node s hs => ?_,
    fun node => ?_, fun name => ?_, ?_⟩
  · rw [← hblocks, hsound.next_blocks]
  · rw [← hblocks]
    exact (List.length_map _).symm
  · rw [← hblocks]
    exact hsound.nodup_names_blocks
  · rw [lookupNode_eq_find?, List.find?_eq_none]
    simp only [hmem, beq_iff_eq, ne_eq]
  · obtain ⟨hs, hnode⟩ := ((hlatest node s).mp hs).mem_flatten
    exact ⟨hnode, (hlookup s.name s).mpr ⟨hs, rfl⟩⟩
  · rw [lookupNode_eq_findSome?, ← hblocks]
    exact Blocks.findSome?_congr_mem fun block hblock =>
      (hsound.byNode_bind_byName hblock node).symm
  · rw [lookup_eq_findSome?, ← hblocks]
    exact Blocks.findSome?_congr_mem fun block _ => (Blocks.getElem?_byName block name).symm
  · rw [← hblocks]
    exact hsound.size_eq_sum_byName

/-- A node gets a variable in an outer and in an inner scope, then another one in the inner scope.
The last one is found while the inner scope is open and the first one after it has been closed; the
number of a variable that is gone is used again. -/
theorem run_refines_shadowed :
    let outer : List Action := [.push, .allocate 7 .vec3]
    let inner : List Action := [.push, .allocate 7 .vec3, .allocate 7 .float, .allocate 2 .vec3]
    (empty.run (outer ++ inner)).lookupNode 7 = some ⟨.float, "float_0", 7⟩ ∧
      (empty.run (outer ++ inner)).lookup "float_0" = some ⟨.float, "float_0", 7⟩ ∧
      (empty.run (outer ++ inner)).lookup "vec3_1" = some ⟨.vec3, "vec3_1", 7⟩ ∧
      (empty.run (outer ++ inner ++ [.pop])).lookupNode 7 = some ⟨.vec3, "vec3_0", 7⟩ ∧
      ((empty.run (outer ++ inner ++ [.pop])).allocate 2 .vec3).1.name = "vec3_1" := by
  intro outer inner
  have hopen : Blocks.run (outer ++ inner) =
      [[⟨.vec3, "vec3_1", 7⟩, ⟨.float, "float_0", 7⟩, ⟨.vec3, "vec3_2", 2⟩],
        [⟨.vec3, "vec3_0", 7⟩]] := by cbv
  have hclosed : Blocks.run (outer ++ inner ++ [.pop]) = [[⟨.vec3, "vec3_0", 7⟩]] := by cbv
  obtain ⟨_, _, _, hlookup, hlatest, _, hfound, _⟩ := run_refines_blocks (outer ++ inner)
  obtain ⟨hnext, _, _, _, hlatest', _⟩ := run_refines_blocks (outer ++ inner ++ [.pop])
  rw [hopen] at hlookup hlatest
  rw [hclosed] at hnext hlatest'
  have hnode : (empty.run (outer ++ inner)).lookupNode 7 = some ⟨.float, "float_0", 7⟩ :=
    (hlatest 7 _).mpr ⟨[], [⟨.vec3, "vec3_1", 7⟩], [⟨.vec3, "vec3_2", 2⟩],
      [[⟨.vec3, "vec3_0", 7⟩]], rfl, rfl, by simp, by simp⟩
  refine ⟨hnode, (hfound 7 _ hnode).2, (hlookup _ _).mpr ⟨by simp, rfl⟩, ?_, ?_⟩
  · exact (hlatest' 7 _).mpr ⟨[], [], [], [], rfl, rfl, by simp, by simp⟩
  · rw [hnext]
    cbv

end SymbolTable

end MaterialGraph
