import MaterialGraph.Proofs.Graph.Relocation
import MaterialGraph.Proofs.Order.Search

/-!
# The order of generation of a relocated graph

The search compares ids with each other and looks up what lies there; it does not ask which of two
ids is the smaller one.  So on a relocated graph it makes the same moves at the new places.

The path and the order of one search are those of the other at the new places (`Search.relocate`).
The fresh nodes are tied at reachable ids only (`Search.SameFresh`), because one graph may have
nodes that the other one does not have.  By induction along the run, the searches come to the same
end (`Search.run_relocate`), and so do the two graphs (`Graph.Relocation.evaluate_eq`).
-/

namespace MaterialGraph

variable {f : NodeId → NodeId}

/-- A visit when the nodes lie at other places. -/
def Visit.relocate (f : NodeId → NodeId) (v : Visit) : Visit :=
  ⟨f v.node, v.pending.map f⟩

namespace Search

/-- A state of the search when the nodes lie at other places, with the given nodes fresh. -/
def relocate (f : NodeId → NodeId) (fresh' : List NodeId) (s : Search) : Search :=
  ⟨fresh', s.path.map (Visit.relocate f), s.order.map f⟩

/-- A reachable id is in one list just if its new place is in the other. -/
structure SameFresh (g : Graph) (f : NodeId → NodeId) (fresh fresh' : List NodeId) : Prop where
  nodup : fresh.Nodup
  nodup' : fresh'.Nodup
  mem_iff : ∀ id, g.Reachable id → (f id ∈ fresh' ↔ id ∈ fresh)

variable {g g' : Graph}

/-- Taking out a reachable id here and its new place there keeps the rest the same. -/
lemma SameFresh.erase {fresh fresh' : List NodeId} (hfresh : SameFresh g f fresh fresh')
    (h : g.Relocation g' f) {p : NodeId} (hp : g.Reachable p) :
    SameFresh g f (fresh.erase p) (fresh'.erase (f p)) where
  nodup := hfresh.nodup.erase p
  nodup' := hfresh.nodup'.erase (f p)
  mem_iff := by
    intro id hid
    have hne : f id ≠ f p ↔ id ≠ p := not_congr (h.eq_iff hid hp)
    rw [hfresh.nodup.mem_erase_iff, hfresh.nodup'.mem_erase_iff, hne, hfresh.mem_iff id hid]

/-- All nodes of one graph are fresh just as those of the other. -/
lemma sameFresh_range (h : g.Relocation g' f) :
    SameFresh g f (List.range g.nodes.length) (List.range g'.nodes.length) where
  nodup := List.nodup_range
  nodup' := List.nodup_range
  mem_iff := by
    intro id hid
    rw [List.mem_range, List.mem_range, h.lt_length_iff hid]

/-- The search of the relocated graph comes to the same end.  The induction is along the search of
the first graph; being valid, it only meets reachable ids. -/
theorem run_relocate (h : g.Relocation g' f) {s : Search} (hs : Valid g s)
    {fresh' : List NodeId} (hfresh : SameFresh g f s.fresh fresh') :
    run g' (s.relocate f fresh') = (run g s).map (List.map f) := by
  fun_induction run g s generalizing fresh' with
  | case1 fresh order =>
    simp only [relocate, List.map_nil]
    rw [run]
    rfl
  | case2 fresh id path order ih =>
    have hnext := ih hs.leave hfresh
    simp only [relocate, List.map_append, List.map_cons, List.map_nil, Visit.relocate] at hnext ⊢
    rw [run]
    exact hnext
  | case3 fresh id p pending path order hp =>
    have hreach : g.Reachable p := hs.reachable_top.reads hs.reads_of_pending
    simp only [relocate, List.map_cons, Visit.relocate]
    rw [run, h.nodes_of_eq_none hreach hp, h.outside p hreach hp]
    rfl
  | case4 fresh id p pending path order n hn hmem ih =>
    have hreach : g.Reachable p := hs.reachable_top.reads hs.reads_of_pending
    have hn' := h.nodes_of_eq_some hreach hn
    have hmem' : f p ∈ fresh' := (hfresh.mem_iff p hreach).mpr hmem
    have hnext := ih (hs.enter hmem) (hfresh.erase h hreach)
    simp only [relocate, List.map_cons, Visit.relocate] at hnext ⊢
    rw [run, hn']
    simp only [if_pos hmem', h.producersOf_relocate hreach]
    exact hnext
  | case5 fresh id p pending path order n hn hmem horder ih =>
    have hreach : g.Reachable p := hs.reachable_top.reads hs.reads_of_pending
    have hn' := h.nodes_of_eq_some hreach hn
    have hmem' : f p ∉ fresh' := fun hmem' => hmem ((hfresh.mem_iff p hreach).mp hmem')
    have horder' : f p ∈ order.map f := List.mem_map_of_mem horder
    have hnext := ih (hs.pass horder) hfresh
    simp only [relocate, List.map_cons, Visit.relocate] at hnext ⊢
    rw [run, hn']
    simp only [if_neg hmem', if_pos horder']
    exact hnext
  | case6 fresh id p pending path order n hn hmem horder =>
    have hreach : g.Reachable p := hs.reachable_top.reads hs.reads_of_pending
    have hn' := h.nodes_of_eq_some hreach hn
    have hmem' : f p ∉ fresh' := fun hmem' => hmem ((hfresh.mem_iff p hreach).mp hmem')
    have horder' : f p ∉ order.map f := by
      rw [h.mem_map_iff hreach fun other hother => hs.reached other (by simp [entered, hother])]
      exact horder
    simp only [relocate, List.map_cons, Visit.relocate]
    rw [run, hn']
    simp only [if_neg hmem', if_neg horder']
    rfl

/-- The first state of the search goes to the first state at the new places. -/
lemma relocate_initial (h : g.Relocation g' f) {root : NodeId} (hroot : g.Reachable root) :
    (initial g root).relocate f ((List.range g'.nodes.length).erase (f root)) =
      initial g' (f root) := by
  simp [relocate, initial, Visit.relocate, h.producersOf_relocate hroot]

end Search

/-- A relocated graph has the same order of generation at the new places, or the same error. -/
theorem Graph.Relocation.evaluate_eq {g g' : Graph} (h : g.Relocation g' f) :
    g'.evaluate = g.evaluate.map (List.map f) := by
  unfold evaluate
  cases hroot : g.root with
  | none =>
    rw [h.root, hroot]
    rfl
  | some root =>
    have hreach : g.Reachable root := ⟨root, hroot, .refl⟩
    rw [h.root, hroot, Option.map_some]
    cases hn : g.nodes[root]? with
    | none =>
      simp only [hn, h.nodes_of_eq_none hreach hn]
      rw [h.outside root hreach hn]
      rfl
    | some n =>
      obtain ⟨hlt, _⟩ := List.getElem?_eq_some_iff.mp hn
      have hfresh := (Search.sameFresh_range h).erase h hreach
      have hrun := Search.run_relocate h (Search.Valid.start hroot hlt) hfresh
      rw [Search.relocate_initial h hreach] at hrun
      simp only [hn, h.nodes_of_eq_some hreach hn]
      exact hrun

end MaterialGraph
