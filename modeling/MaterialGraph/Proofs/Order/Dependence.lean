import Mathlib.Data.List.Basic
import Mathlib.Logic.Relation
import Mathlib.Tactic.Common
import MaterialGraph.Graph.Basic

/-!
# Dependence between nodes

A node depends on the nodes it reads, on the nodes those read, and so on.  This file defines the
relation and what it means for a list of nodes to respect it: `ProducersFirst` says that every
member stands after everything it reads.

A list with that property is closed under dependence (`ProducersFirst.mem_of_reaches`), and no
member of it lies on a cycle (`ProducersFirst.not_onCycle`), because the place of a node in the
list goes down along every connection.
-/

namespace MaterialGraph

open Relation

/-- The producers of a node are what its sockets are connected to. -/
lemma Node.mem_producers_iff {n : Node} {p : NodeId} :
    p ∈ n.producers ↔ ∃ s ∈ n.sockets, s.binding = some (.connection p) := by
  have hproducer : ∀ s : Socket, s.producer? = some p ↔ s.binding = some (.connection p) := by
    intro s
    obtain ⟨name, type, binding⟩ := s
    cases binding with
    | none => simp [Socket.producer?]
    | some binding => cases binding <;> simp [Socket.producer?]
  unfold producers
  rw [List.mem_filterMap]
  exact exists_congr fun s => and_congr_right fun _ => hproducer s

namespace Graph

/-- A node reads another one if one of its sockets is connected to it. -/
def Reads (g : Graph) (consumer producer : NodeId) : Prop :=
  producer ∈ g.producersOf consumer

/-- The ids that the output depends on: the root, and whatever is found from there by following
connections. -/
def Reachable (g : Graph) (id : NodeId) : Prop :=
  ∃ root, g.root = some root ∧ ReflTransGen g.Reads root id

/-- A node lies on a cycle if it depends on itself. -/
def OnCycle (g : Graph) (id : NodeId) : Prop :=
  TransGen g.Reads id id

/-- Every member of a list stands after the nodes it reads. -/
def ProducersFirst (g : Graph) (order : List NodeId) : Prop :=
  ∀ before id after, order = before ++ id :: after → ∀ p, g.Reads id p → p ∈ before

variable {g : Graph}

/-- Looking a node up. -/
lemma node_eq_ok_iff {id : NodeId} {n : Node} :
    g.node id = .ok n ↔ g.nodes[id]? = some n := by
  unfold node
  cases g.nodes[id]? <;> simp

/-- The ids of nodes are the numbers below the number of nodes. -/
lemma exists_node {id : NodeId} (hid : id < g.nodes.length) : ∃ n, g.nodes[id]? = some n :=
  ⟨_, List.getElem?_eq_getElem hid⟩

/-- The producers of an id are those of its node. -/
lemma producersOf_eq {id : NodeId} {n : Node} (hn : g.nodes[id]? = some n) :
    g.producersOf id = n.producers := by
  rw [producersOf, hn]

/-- Only nodes of the graph read anything, and they read their producers. -/
lemma reads_iff {consumer producer : NodeId} :
    g.Reads consumer producer ↔
      ∃ n, g.nodes[consumer]? = some n ∧ producer ∈ n.producers := by
  unfold Reads producersOf
  cases g.nodes[consumer]? <;> simp

/-- What a reachable node reads is reachable. -/
lemma Reachable.reads {id p : NodeId} (h : g.Reachable id) (hp : g.Reads id p) :
    g.Reachable p := by
  obtain ⟨root, hroot, hreach⟩ := h
  exact ⟨root, hroot, hreach.tail hp⟩

namespace ProducersFirst

variable {order : List NodeId}

/-- What the member at some place reads is among those before that place. -/
lemma mem_take_of_reads (h : g.ProducersFirst order) {i : Nat} {id p : NodeId}
    (hi : order[i]? = some id) (hp : g.Reads id p) : p ∈ order.take i := by
  obtain ⟨hlt, hget⟩ := List.getElem?_eq_some_iff.mp hi
  have hsplit : order = order.take i ++ id :: order.drop (i + 1) := by
    rw [← hget, List.getElem_cons_drop, List.take_append_drop]
  exact h _ _ _ hsplit p hp

/-- What a member reads stands at a place before it. -/
lemma exists_lt_of_reads (h : g.ProducersFirst order) {i : Nat} {id p : NodeId}
    (hi : order[i]? = some id) (hp : g.Reads id p) : ∃ j, j < i ∧ order[j]? = some p := by
  obtain ⟨j, hj, hget⟩ := List.mem_take_iff_getElem.mp (h.mem_take_of_reads hi hp)
  have hji : j < i := Nat.lt_of_lt_of_le hj (Nat.min_le_left _ _)
  have hjlen : j < order.length := Nat.lt_of_lt_of_le hj (Nat.min_le_right _ _)
  exact ⟨j, hji, List.getElem?_eq_some_iff.mpr ⟨hjlen, hget⟩⟩

/-- What a member reads is a member. -/
lemma mem_of_reads (h : g.ProducersFirst order) {id p : NodeId} (hid : id ∈ order)
    (hp : g.Reads id p) : p ∈ order := by
  obtain ⟨before, after, hsplit⟩ := List.append_of_mem hid
  have hmem : p ∈ before := h before id after hsplit p hp
  rw [hsplit]
  exact List.mem_append_left _ hmem

/-- What a member depends on is a member. -/
lemma mem_of_reaches (h : g.ProducersFirst order) {a b : NodeId} (ha : a ∈ order)
    (hab : ReflTransGen g.Reads a b) : b ∈ order := by
  induction hab with
  | refl => exact ha
  | tail _ hread ih => exact h.mem_of_reads ih hread

/-- The first place of a node goes down along a connection. -/
lemma idxOf_lt_of_reads (h : g.ProducersFirst order) {id p : NodeId} (hid : id ∈ order)
    (hp : g.Reads id p) : order.idxOf p < order.idxOf id := by
  have hlt : order.idxOf id < order.length := List.idxOf_lt_length_iff.mpr hid
  have hget : order[order.idxOf id]? = some id := by
    rw [List.getElem?_eq_getElem hlt, List.getElem_idxOf hlt]
  have hmem : p ∈ order.take (order.idxOf id) := h.mem_take_of_reads hget hp
  exact (List.mem_take_iff_idxOf_lt (h.mem_of_reads hid hp)).mp hmem

/-- The first place of a node goes down along every chain of connections. -/
lemma idxOf_lt_of_depends (h : g.ProducersFirst order) {a b : NodeId} (ha : a ∈ order)
    (hab : TransGen g.Reads a b) : order.idxOf b < order.idxOf a := by
  induction hab with
  | single hread => exact h.idxOf_lt_of_reads ha hread
  | tail hchain hread ih =>
    have hmem := h.mem_of_reaches ha hchain.to_reflTransGen
    exact Nat.lt_trans (h.idxOf_lt_of_reads hmem hread) ih

/-- No member lies on a cycle. -/
lemma not_onCycle (h : g.ProducersFirst order) {id : NodeId} (hid : id ∈ order) :
    ¬ g.OnCycle id := by
  intro hcycle
  exact Nat.lt_irrefl _ (h.idxOf_lt_of_depends hid hcycle)

end ProducersFirst

end Graph

end MaterialGraph
