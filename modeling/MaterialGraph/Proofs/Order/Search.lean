import Mathlib.Data.List.Nodup
import Mathlib.Data.List.Perm.Basic
import MaterialGraph.Graph.Order
import MaterialGraph.Proofs.Order.Dependence

/-!
# Invariant of the depth-first search

A state of the search splits the nodes of the graph into fresh ones, those on the path and those
that are done.  `Search.Valid` adds what ties the parts together: the nodes entered so far, read
as one list with the done ones first and then the path from its latest node down, have everything
they read before them, except for the producers that they still have to look at.

The search moves in three ways: it leaves a node, enters a producer, or passes over a producer
that is done.  Each way keeps the invariant (`Valid.leave`, `Valid.enter`, `Valid.pass`), and
leaving a node does not even change the list.  By induction along the run, the search ends in a
`DependencyOrder` or in an error that is true of the graph (`Valid.run_spec`).
-/

namespace MaterialGraph

open Relation

/-- What it means for a list to be the order of generation of a graph. -/
structure DependencyOrder (g : Graph) (order : List NodeId) : Prop where
  nodup : order.Nodup
  mem_iff : ∀ id, id ∈ order ↔ g.Reachable id
  last : order.getLast? = g.root
  first : g.ProducersFirst order
  known : ∀ id ∈ order, id < g.nodes.length

/-- An order of generation is not longer than the list of nodes. -/
lemma DependencyOrder.length_le {g : Graph} {order : List NodeId} (h : DependencyOrder g order) :
    order.length ≤ g.nodes.length := by
  have hsubset : order ⊆ List.range g.nodes.length :=
    fun id hid => List.mem_range.mpr (h.known id hid)
  have hle := (List.subperm_of_subset h.nodup hsubset).length_le
  rwa [List.length_range] at hle

/-- What an error of the search says about the graph.  Other errors say nothing true. -/
def GraphError.TrueOf (g : Graph) : GraphError → Prop
  | .noRoot => g.root = none
  | .cycle name => ∃ id n, g.Reachable id ∧ g.nodes[id]? = some n ∧ n.name = name ∧ g.OnCycle id
  | .unknownNode p => g.nodes.length ≤ p ∧ (g.root = some p ∨ ∃ id, g.Reachable id ∧ g.Reads id p)
  | _ => False

namespace Search

/-- The state in which a search from the given node starts. -/
def initial (g : Graph) (root : NodeId) : Search :=
  ⟨(List.range g.nodes.length).erase root, [⟨root, g.producersOf root⟩], []⟩

/-- Every node entered so far with the producers it still has to look at: those that are done, and
then the path from its latest node down. -/
def visits (s : Search) : List Visit :=
  s.order.map (fun id => ⟨id, []⟩) ++ s.path

/-- The nodes entered so far. -/
def entered (s : Search) : List NodeId :=
  s.order ++ s.path.map Visit.node

/-- Whatever a node of the list reads is still pending there, or has been seen before it. -/
def Served (g : Graph) (seen : List NodeId) : List Visit → Prop
  | [] => True
  | v :: vs => (∀ p, g.Reads v.node p → p ∈ v.pending ∨ p ∈ seen) ∧ Served g (seen ++ [v.node]) vs

variable {g : Graph}

/-- Having seen more does no harm. -/
lemma Served.mono {seen seen' : List NodeId} {vs : List Visit} (h : Served g seen vs)
    (hsub : seen ⊆ seen') : Served g seen' vs := by
  induction vs generalizing seen seen' with
  | nil => trivial
  | cons v vs ih =>
    obtain ⟨hhead, htail⟩ := h
    refine ⟨fun p hp => (hhead p hp).imp_right fun hseen => hsub hseen, ih htail ?_⟩
    exact List.append_subset.mpr
      ⟨List.subset_append_of_subset_left _ hsub, List.subset_append_right _ _⟩

/-- A list is served if its front is, and its rest once the front has been seen. -/
lemma served_append {seen : List NodeId} {front rest : List Visit} :
    Served g seen (front ++ rest) ↔
      Served g seen front ∧ Served g (seen ++ front.map Visit.node) rest := by
  induction front generalizing seen with
  | nil => simp [Served]
  | cons v front ih =>
    simp only [List.cons_append, Served, ih, List.map_cons, List.append_assoc, List.nil_append,
      and_assoc]

/-- When nothing is pending any more, every node stands after what it reads. -/
lemma Served.producersFirst {order : List NodeId}
    (h : Served g [] (order.map fun id => ⟨id, []⟩)) : g.ProducersFirst order := by
  intro before id after hsplit p hp
  rw [hsplit, List.map_append, served_append, List.map_cons] at h
  have hseen := h.2.1 p hp
  simpa [Function.comp_def] using hseen

/-- The invariant of the search.  The nodes of the graph are the fresh and the entered ones; what
is pending at a node is the end of its list of producers; each node on the path depends on those
above it; only reachable nodes are entered, and the root is the last of them. -/
structure Valid (g : Graph) (s : Search) : Prop where
  split : (s.fresh ++ s.entered).Perm (List.range g.nodes.length)
  pending : ∀ v ∈ s.path, v.pending <:+ g.producersOf v.node
  served : Served g [] s.visits
  chain : s.path.Pairwise fun above below => TransGen g.Reads below.node above.node
  reached : ∀ id ∈ s.entered, g.Reachable id
  last : s.entered.getLast? = g.root

namespace Valid

variable {fresh order pending : List NodeId} {path : List Visit} {id p : NodeId} {s : Search}

/-- Every node is in just one of the three states. -/
lemma nodup (h : Valid g s) : (s.fresh ++ s.entered).Nodup :=
  h.split.nodup_iff.mpr List.nodup_range

/-- The nodes entered are nodes of the graph. -/
lemma lt_of_mem (h : Valid g s) (hid : id ∈ s.entered) : id < g.nodes.length :=
  List.mem_range.mp (h.split.mem_iff.mp (List.mem_append_right _ hid))

/-- A node that is neither fresh nor done lies on the path. -/
lemma mem_path (h : Valid g s) (hid : id < g.nodes.length) (hfresh : id ∉ s.fresh)
    (horder : id ∉ s.order) : ∃ v ∈ s.path, v.node = id := by
  have hmem : id ∈ s.fresh ++ s.entered := h.split.mem_iff.mpr (List.mem_range.mpr hid)
  have hpath : id ∈ s.path.map Visit.node := by
    simpa [entered, hfresh, horder] using hmem
  exact List.mem_map.mp hpath

/-- What is pending at the latest node of the path is read by it. -/
lemma reads_of_pending (h : Valid g ⟨fresh, ⟨id, p :: pending⟩ :: path, order⟩) :
    g.Reads id p :=
  (h.pending _ List.mem_cons_self).subset List.mem_cons_self

/-- The latest node of the path is reachable. -/
lemma reachable_top (h : Valid g ⟨fresh, ⟨id, pending⟩ :: path, order⟩) : g.Reachable id :=
  h.reached id (by simp [entered])

/-! ### The moves of the search -/

/-- The search starts with the root on the path. -/
lemma start {root : NodeId} (hroot : g.root = some root) (hlt : root < g.nodes.length) :
    Valid g (initial g root) where
  split := by
    have hperm := List.perm_cons_erase (List.mem_range.mpr hlt)
    exact (List.perm_append_singleton root _).trans hperm.symm
  pending := by
    intro v hv
    obtain rfl := List.mem_singleton.mp hv
    exact List.suffix_rfl
  served := ⟨fun p hp => Or.inl hp, trivial⟩
  chain := List.pairwise_singleton _ _
  reached := by
    intro id hid
    have hid : id = root := by simpa [entered, initial] using hid
    rw [hid]
    exact ⟨root, hroot, ReflTransGen.refl⟩
  last := by simp [entered, initial, hroot]

/-- Leaving a node moves it from the head of the path to the end of the order, which leaves the
list of entered nodes as it is. -/
lemma leave (h : Valid g ⟨fresh, ⟨id, []⟩ :: path, order⟩) :
    Valid g ⟨fresh, path, order ++ [id]⟩ := by
  have hvisits : visits ⟨fresh, path, order ++ [id]⟩ = visits ⟨fresh, ⟨id, []⟩ :: path, order⟩ := by
    simp [visits]
  have hentered :
      entered ⟨fresh, path, order ++ [id]⟩ = entered ⟨fresh, ⟨id, []⟩ :: path, order⟩ := by
    simp [entered]
  exact
    { split := by rw [hentered]; exact h.split
      pending := fun v hv => h.pending v (List.mem_cons_of_mem _ hv)
      served := by rw [hvisits]; exact h.served
      chain := h.chain.of_cons
      reached := by rw [hentered]; exact h.reached
      last := by rw [hentered]; exact h.last }

/-- Entering a fresh producer puts it on the path, above the node that reads it. -/
lemma enter (h : Valid g ⟨fresh, ⟨id, p :: pending⟩ :: path, order⟩) (hp : p ∈ fresh) :
    Valid g ⟨fresh.erase p, ⟨p, g.producersOf p⟩ :: ⟨id, pending⟩ :: path, order⟩ := by
  have hread : g.Reads id p := h.reads_of_pending
  refine ⟨?_, ?_, ?_, ?_, ?_, ?_⟩
  · -- `p` goes from the fresh nodes to the entered ones
    have hfresh := (List.perm_cons_erase hp).append_right (order ++ id :: path.map Visit.node)
    have hmiddle : (fresh.erase p ++ (order ++ p :: id :: path.map Visit.node)).Perm
        (p :: (fresh.erase p ++ (order ++ id :: path.map Visit.node))) := by
      rw [← List.append_assoc, ← List.append_assoc]
      exact List.perm_middle
    exact (hmiddle.trans hfresh.symm).trans h.split
  · intro v hv
    rcases List.mem_cons.mp hv with rfl | hv
    · exact List.suffix_rfl
    rcases List.mem_cons.mp hv with rfl | hv
    · exact (List.suffix_cons _ _).trans (h.pending _ List.mem_cons_self)
    · exact h.pending v (List.mem_cons_of_mem _ hv)
  · -- for the reader, `p` is no longer pending but stands right before it
    obtain ⟨hdone, htop, hrest⟩ := served_append.mp h.served
    refine served_append.mpr ⟨hdone, fun q hq => Or.inl hq, fun q hq => ?_, hrest.mono ?_⟩
    · rcases htop q hq with hq | hq
      · rcases List.mem_cons.mp hq with rfl | hq
        · exact Or.inr (List.mem_append_right _ List.mem_cons_self)
        · exact Or.inl hq
      · exact Or.inr (List.mem_append_left _ hq)
    · intro q hq
      rcases List.mem_append.mp hq with hq | hq
      · exact List.mem_append_left _ (List.mem_append_left _ hq)
      · exact List.mem_append_right _ hq
  · -- everything on the path depends on its latest node, and so on `p`
    obtain ⟨hbelow, hpath⟩ := List.pairwise_cons.mp h.chain
    refine List.pairwise_cons.mpr ⟨?_, List.pairwise_cons.mpr ⟨hbelow, hpath⟩⟩
    intro v hv
    rcases List.mem_cons.mp hv with rfl | hv
    · exact TransGen.single hread
    · exact (hbelow v hv).tail hread
  · intro q hq
    by_cases hqp : q = p
    · rw [hqp]
      exact h.reachable_top.reads hread
    · exact h.reached q (by simpa [entered, hqp] using hq)
  · rw [← h.last]
    simp [entered]

/-- Passing over a producer that is done only takes it off what is pending. -/
lemma pass (h : Valid g ⟨fresh, ⟨id, p :: pending⟩ :: path, order⟩) (hp : p ∈ order) :
    Valid g ⟨fresh, ⟨id, pending⟩ :: path, order⟩ where
  split := h.split
  pending := by
    intro v hv
    rcases List.mem_cons.mp hv with rfl | hv
    · exact (List.suffix_cons _ _).trans (h.pending _ List.mem_cons_self)
    · exact h.pending v (List.mem_cons_of_mem _ hv)
  served := by
    obtain ⟨hdone, htop, hrest⟩ := served_append.mp h.served
    refine served_append.mpr ⟨hdone, fun q hq => ?_, hrest⟩
    rcases htop q hq with hq | hq
    · rcases List.mem_cons.mp hq with rfl | hq
      · exact Or.inr (by simpa [Function.comp_def] using hp)
      · exact Or.inl hq
    · exact Or.inr hq
  chain := List.pairwise_cons.mpr (List.pairwise_cons.mp h.chain)
  reached := h.reached
  last := h.last

/-! ### The end of the search -/

/-- When the path is empty, the nodes that are done are in order. -/
lemma dependencyOrder (h : Valid g ⟨fresh, [], order⟩) : DependencyOrder g order := by
  have hentered : entered ⟨fresh, [], order⟩ = order := List.append_nil order
  have hfirst : g.ProducersFirst order := by
    have hserved := h.served
    rw [visits, List.append_nil] at hserved
    exact hserved.producersFirst
  have hlast : order.getLast? = g.root := by rw [← hentered]; exact h.last
  refine ⟨?_, fun id => ⟨fun hid => ?_, fun hid => ?_⟩, hlast, hfirst, fun id hid => ?_⟩
  · have hnodup := (List.nodup_append.mp h.nodup).2.1
    rwa [hentered] at hnodup
  · exact h.reached id (by rw [hentered]; exact hid)
  · obtain ⟨root, hroot, hreach⟩ := hid
    exact hfirst.mem_of_reaches (List.mem_of_getLast? (hlast.trans hroot)) hreach
  · exact h.lt_of_mem (by rw [hentered]; exact hid)

/-- A producer outside the graph is what the search says it is. -/
lemma trueOf_unknownNode (h : Valid g ⟨fresh, ⟨id, p :: pending⟩ :: path, order⟩)
    (hp : g.nodes[p]? = none) : (GraphError.unknownNode p).TrueOf g :=
  ⟨List.getElem?_eq_none_iff.mp hp, Or.inr ⟨id, h.reachable_top, h.reads_of_pending⟩⟩

/-- A producer that is neither fresh nor done depends on the node that reads it. -/
lemma trueOf_cycle (h : Valid g ⟨fresh, ⟨id, p :: pending⟩ :: path, order⟩) {n : Node}
    (hn : g.nodes[p]? = some n) (hfresh : p ∉ fresh) (horder : p ∉ order) :
    (GraphError.cycle n.name).TrueOf g := by
  have hread : g.Reads id p := h.reads_of_pending
  refine ⟨p, n, h.reachable_top.reads hread, hn, rfl, ?_⟩
  obtain ⟨hlt, _⟩ := List.getElem?_eq_some_iff.mp hn
  obtain ⟨v, hv, hnode⟩ := h.mem_path hlt hfresh horder
  rcases List.mem_cons.mp hv with rfl | hv
  · rw [show p = id from hnode.symm] at hread ⊢
    exact TransGen.single hread
  · have hdepends := (List.pairwise_cons.mp h.chain).1 v hv
    rw [hnode] at hdepends
    exact hdepends.tail hread

/-- A search that starts in a valid state ends in an order of generation or in an error that is
true of the graph. -/
theorem run_spec (h : Valid g s) :
    match run g s with
    | .ok order => DependencyOrder g order
    | .error e => e.TrueOf g := by
  fun_induction run g s with
  | case1 => exact h.dependencyOrder
  | case2 fresh id path order ih => exact ih h.leave
  | case3 fresh id p pending path order hp => exact h.trueOf_unknownNode hp
  | case4 fresh id p pending path order n hn hfresh ih => exact ih (h.enter hfresh)
  | case5 fresh id p pending path order n hn hfresh horder ih => exact ih (h.pass horder)
  | case6 fresh id p pending path order n hn hfresh horder =>
    exact h.trueOf_cycle hn hfresh horder

end Valid

end Search

end MaterialGraph
