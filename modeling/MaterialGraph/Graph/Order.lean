import MaterialGraph.Graph.Basic

/-!
# The order of generation

The nodes that the output depends on, each after the nodes it reads.  The search goes depth first
along the sockets in their order and keeps its own stack.  A node is fresh until the search enters
it, then lies on the path, and is put into the order when all its producers are there.  A
connection to a node on the path closes a cycle.
-/

namespace MaterialGraph

/-- A node on the path of the search and the producers it still has to look at. -/
structure Visit where
  node : NodeId
  pending : List NodeId

/-- A state of the search: the nodes not entered yet, the path with the latest node first, and the
nodes that are done. -/
structure Search where
  fresh : List NodeId
  path : List Visit
  order : List NodeId

namespace Search

/-- The steps that entering, serving and leaving a node takes. -/
def cost (g : Graph) (id : NodeId) : Nat :=
  (g.producersOf id).length + 1

/-- The sum over a list of what each member counts for. -/
def total {α : Type} (count : α → Nat) : List α → Nat
  | [] => 0
  | a :: l => count a + total count l

/-- Taking a member out of a list takes its share out of the sum. -/
theorem total_erase (count : NodeId → Nat) {a : NodeId} {l : List NodeId} (h : a ∈ l) :
    total count (l.erase a) + count a = total count l := by
  induction l with
  | nil => cases h
  | cons b l ih =>
    by_cases same : b = a
    · subst same
      simp only [List.erase_cons_head, total]
      omega
    · have rest := ih ((List.mem_cons.mp h).resolve_left fun eq => same eq.symm)
      rw [List.erase_cons_tail (by simpa using same)]
      simp only [total]
      omega

/-- How many steps a search has before it.  Every step takes one away. -/
def work (g : Graph) (s : Search) : Nat :=
  total (cost g) s.fresh + total (fun v => v.pending.length + 1) s.path

/-- Run a search to its end. -/
def run (g : Graph) (s : Search) : Except GraphError (List NodeId) :=
  match s with
  | ⟨_, [], order⟩ => .ok order
  | ⟨fresh, ⟨id, []⟩ :: path, order⟩ => run g ⟨fresh, path, order ++ [id]⟩
  | ⟨fresh, ⟨id, producer :: pending⟩ :: path, order⟩ =>
    match g.nodes[producer]? with
    | none => .error (.unknownNode producer)
    | some n =>
      if producer ∈ fresh then
        run g ⟨fresh.erase producer, ⟨producer, g.producersOf producer⟩ :: ⟨id, pending⟩ :: path,
          order⟩
      else if producer ∈ order then run g ⟨fresh, ⟨id, pending⟩ :: path, order⟩
      else .error (.cycle n.name)
termination_by s.work g
decreasing_by
  · simp [work, total]
  · rename_i member
    have share := total_erase (cost g) member
    simp only [work, total, List.length_cons]
    simp only [cost] at share
    omega
  · simp [work, total]

end Search

/-- The nodes that the output depends on, every producer before its consumers, the output last. -/
def Graph.evaluate (g : Graph) : Except GraphError (List NodeId) :=
  match g.root with
  | none => .error .noRoot
  | some root =>
    match g.nodes[root]? with
    | none => .error (.unknownNode root)
    | some _ =>
      Search.run g ⟨(List.range g.nodes.length).erase root, [⟨root, g.producersOf root⟩], []⟩

end MaterialGraph
