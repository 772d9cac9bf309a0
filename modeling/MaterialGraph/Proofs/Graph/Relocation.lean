import Mathlib.Data.Set.Function
import MaterialGraph.Proofs.Order.Dependence

/-!
# Relocation of nodes

The id of a node is the place where it happens to lie.  This file says what it means that a graph
holds the material of another one at other places: `Graph.Relocation g g' f` asks that every id on
which the output of `g` depends is found in `g'` at the place that `f` gives, with the connections
led through `f`, and that `f` does not bring two such ids together.  Nothing is asked of the rest,
so the graphs may differ in length and in everything that the output does not depend on.

An id outside `g` that the output depends on has to stay as it is, since errors show it.

The lemmas say what the two graphs have in common at a reachable id: its node
(`Relocation.node_relocate`), its producers (`Relocation.producersOf_relocate`), and whether it
lies in the graph (`Relocation.lt_length_iff`).
-/

namespace MaterialGraph

variable {f : NodeId → NodeId}

/-! ### Nodes at other places -/

/-- What is bound to a socket when the producers lie at other places. -/
def Binding.relocate (f : NodeId → NodeId) : Binding → Binding
  | literal value => literal value
  | connection producer => connection (f producer)

/-- A socket when the producers lie at other places. -/
def Socket.relocate (f : NodeId → NodeId) (s : Socket) : Socket :=
  { s with binding := s.binding.map (Binding.relocate f) }

/-- A node when its producers lie at other places. -/
def Node.relocate (f : NodeId → NodeId) (n : Node) : Node :=
  { n with sockets := n.sockets.map (Socket.relocate f) }

/-- The producer of a socket goes to its new place. -/
lemma Socket.producer?_relocate (s : Socket) :
    (s.relocate f).producer? = s.producer?.map f := by
  obtain ⟨name, type, binding⟩ := s
  cases binding with
  | none => rfl
  | some binding => cases binding <;> rfl

/-- The producers of a node go to their new places. -/
lemma Node.producers_relocate (n : Node) :
    (n.relocate f).producers = n.producers.map f := by
  unfold producers relocate
  rw [List.filterMap_map, List.map_filterMap]
  exact List.filterMap_congr fun s _ => s.producer?_relocate

/-- What is bound to a socket stays if every place does. -/
lemma Binding.relocate_id : Binding.relocate id = id := by
  funext binding
  cases binding <;> rfl

/-- A socket stays if every place does. -/
lemma Socket.relocate_id : Socket.relocate id = id := by
  funext s
  rw [Socket.relocate, Binding.relocate_id, Option.map_id]
  rfl

/-- A node stays if every place does. -/
lemma Node.relocate_id : Node.relocate id = id := by
  funext n
  rw [Node.relocate, Socket.relocate_id, List.map_id]
  rfl

/-! ### Graphs with nodes at other places -/

namespace Graph

/-- A graph holds what the output of another one depends on, at the places that `f` gives. -/
structure Relocation (g g' : Graph) (f : NodeId → NodeId) : Prop where
  root : g'.root = g.root.map f
  nodes : ∀ id, g.Reachable id → g'.nodes[f id]? = g.nodes[id]?.map (Node.relocate f)
  injective : Set.InjOn f {id | g.Reachable id}
  /-- An id that does not belong to the graph is shown in errors, so it has to stay. -/
  outside : ∀ id, g.Reachable id → g.nodes[id]? = none → f id = id

namespace Relocation

variable {g g' : Graph} {id other : NodeId}

/-- Different reachable ids stay different. -/
lemma eq_iff (h : g.Relocation g' f) (hid : g.Reachable id) (hother : g.Reachable other) :
    f id = f other ↔ id = other :=
  h.injective.eq_iff hid hother

/-- A reachable id is in a list of reachable ids just if it is there afterwards. -/
lemma mem_map_iff (h : g.Relocation g' f) (hid : g.Reachable id) {ids : List NodeId}
    (hids : ∀ other ∈ ids, g.Reachable other) : f id ∈ ids.map f ↔ id ∈ ids := by
  constructor
  · intro hmem
    obtain ⟨other, hother, heq⟩ := List.mem_map.mp hmem
    rw [← (h.eq_iff (hids other hother) hid).mp heq]
    exact hother
  · exact List.mem_map_of_mem

/-- The node at a reachable id is found at its new place. -/
lemma nodes_of_eq_some (h : g.Relocation g' f) (hid : g.Reachable id) {n : Node}
    (hn : g.nodes[id]? = some n) : g'.nodes[f id]? = some (n.relocate f) := by
  rw [h.nodes id hid, hn, Option.map_some]

/-- A reachable id outside the graph is outside the other one as well. -/
lemma nodes_of_eq_none (h : g.Relocation g' f) (hid : g.Reachable id)
    (hn : g.nodes[id]? = none) : g'.nodes[f id]? = none := by
  rw [h.nodes id hid, hn, Option.map_none]

/-- Looking up a reachable id gives the node at its new place, or the same error. -/
lemma node_relocate (h : g.Relocation g' f) (hid : g.Reachable id) :
    g'.node (f id) = (g.node id).map (Node.relocate f) := by
  unfold node
  cases hn : g.nodes[id]? with
  | none =>
    rw [h.nodes_of_eq_none hid hn, h.outside id hid hn]
    rfl
  | some n =>
    rw [h.nodes_of_eq_some hid hn]
    rfl

/-- A reachable id lies in the graph just if its new place lies in the other one. -/
lemma lt_length_iff (h : g.Relocation g' f) (hid : g.Reachable id) :
    f id < g'.nodes.length ↔ id < g.nodes.length := by
  have hnone : g'.nodes[f id]? = none ↔ g.nodes[id]? = none := by
    rw [h.nodes id hid, Option.map_eq_none_iff]
  rw [List.getElem?_eq_none_iff, List.getElem?_eq_none_iff] at hnone
  rw [← Nat.not_le, ← Nat.not_le, hnone]

/-- The producers of a reachable id go to their new places. -/
lemma producersOf_relocate (h : g.Relocation g' f) (hid : g.Reachable id) :
    g'.producersOf (f id) = (g.producersOf id).map f := by
  unfold producersOf
  rw [h.nodes id hid]
  cases g.nodes[id]? with
  | none => rfl
  | some n => exact n.producers_relocate

end Relocation

/-- A graph that has the same nodes at all reachable ids is a relocation without moves. -/
lemma relocation_id {g g' : Graph} (hroot : g'.root = g.root)
    (hnodes : ∀ id, g.Reachable id → g'.nodes[id]? = g.nodes[id]?) : g.Relocation g' id where
  root := by rw [hroot, Option.map_id]; rfl
  nodes := by
    intro i hi
    rw [Node.relocate_id, Option.map_id]
    exact hnodes i hi
  injective := fun _ _ _ _ heq => heq
  outside := fun _ _ _ => rfl

end Graph

end MaterialGraph
