import Mathlib
import MaterialGraph.Graph.Edit
import MaterialGraph.Proofs.Order.Marks

/-!
# The order of generation

What the search from the root comes to, for every graph, whatever its connections are.

* `evaluate_producers_first`: an order that is found lists just the nodes that the output depends
  on, each once and after its producers, with the root at the end.
* `evaluate_ok_iff_and_truthful`: an order is found whenever there is one.  Otherwise the error
  that is reported is true of the graph.
-/

namespace MaterialGraph

open Relation

/-- A graph of nodes that are not on cycles and not missing gives no room for an error. -/
lemma GraphError.not_trueOf {g : Graph} {e : GraphError} (hroot : g.root ≠ none)
    (hsound : ∀ id, g.Reachable id → id < g.nodes.length ∧ ¬ g.OnCycle id) : ¬ e.TrueOf g := by
  intro htrue
  cases e with
  | noRoot => exact hroot htrue
  | cycle name =>
    obtain ⟨id, _, hreach, _, _, hcycle⟩ := htrue
    exact (hsound id hreach).2 hcycle
  | unknownNode p =>
    obtain ⟨hout, hp⟩ := htrue
    have hreach : g.Reachable p := by
      rcases hp with hp | ⟨id, hid, hread⟩
      · exact ⟨p, hp, ReflTransGen.refl⟩
      · exact hid.reads hread
    exact absurd (hsound p hreach).1 (Nat.not_lt.mpr hout)
  | _ => exact htrue

namespace Graph

/-- What the search from the root comes to. -/
lemma evaluate_spec (g : Graph) :
    match g.evaluate with
    | .ok order => DependencyOrder g order
    | .error e => e.TrueOf g := by
  unfold evaluate
  cases hroot : g.root with
  | none => exact hroot
  | some root =>
    cases hnode : g.nodes[root]? with
    | none =>
      simp only [hnode]
      exact ⟨List.getElem?_eq_none_iff.mp hnode, Or.inl hroot⟩
    | some n =>
      simp only [hnode]
      obtain ⟨hlt, _⟩ := List.getElem?_eq_some_iff.mp hnode
      exact (Search.Valid.start hroot hlt).run_spec

variable {g : Graph}

/-- An order that is found is one. -/
lemma dependencyOrder_of_evaluate {order : List NodeId} (h : g.evaluate = .ok order) :
    DependencyOrder g order := by
  have hspec := g.evaluate_spec
  rwa [h] at hspec

/-- An error that is reported is true. -/
lemma trueOf_of_evaluate {e : GraphError} (h : g.evaluate = .error e) : e.TrueOf g := by
  have hspec := g.evaluate_spec
  rwa [h] at hspec

/-- Only a graph with a root has an order. -/
lemma exists_root_of_evaluate {order : List NodeId} (h : g.evaluate = .ok order) :
    ∃ root, g.root = some root := by
  cases hroot : g.root with
  | none =>
    unfold evaluate at h
    rw [hroot] at h
    cases h
  | some root => exact ⟨root, rfl⟩

/-- An order that is found has no duplicates, contains just the ids reachable from the root, ends
with the root, and has the producers of each of its nodes at places before it. -/
theorem evaluate_producers_first (g : Graph) (order : List NodeId) (h : g.evaluate = .ok order) :
    order.Nodup ∧ (∀ id, id ∈ order ↔ g.Reachable id) ∧
      (∃ root, g.root = some root ∧ order.getLast? = some root) ∧
      ∀ (i : Nat) (id : NodeId), order[i]? = some id → ∃ n : Node, g.nodes[id]? = some n ∧
        ∀ p ∈ n.producers, ∃ j, j < i ∧ order[j]? = some p := by
  have horder := dependencyOrder_of_evaluate h
  obtain ⟨root, hroot⟩ := exists_root_of_evaluate h
  refine ⟨horder.nodup, horder.mem_iff, ⟨root, hroot, horder.last.trans hroot⟩, ?_⟩
  intro i id hi
  obtain ⟨n, hn⟩ := exists_node (horder.known id (List.mem_of_getElem? hi))
  exact ⟨n, hn, fun p hp => horder.first.exists_lt_of_reads hi (reads_iff.mpr ⟨n, hn, hp⟩)⟩

/-- A graph in which two nodes read a third one, and a node that nothing reads reads the root. -/
def diamond : Graph where
  nodes :=
    [((Node.new "mix" (.mix .mix)).bind "Color1" (some (.connection 1))).bind "Color2"
        (some (.connection 2)),
      (Node.new "left" .invert).bind "Color" (some (.connection 3)),
      (Node.new "right" (.gamma .linearToSRGB)).bind "Color" (some (.connection 3)),
      Node.new "shared" .hsv,
      (Node.new "unused" .emission).bind "Color" (some (.connection 0))]
  root := some 0

/-- In the diamond the shared node comes first and once, and the unused one not at all. -/
theorem evaluate_diamond :
    diamond.evaluate = .ok [3, 1, 2, 0] ∧
      [3, 1, 2, 0].Nodup ∧ (∀ id, id ∈ [3, 1, 2, 0] ↔ diamond.Reachable id) ∧
      (∃ root, diamond.root = some root ∧ [3, 1, 2, 0].getLast? = some root) ∧
      ∀ (i : Nat) (id : NodeId), [3, 1, 2, 0][i]? = some id →
        ∃ n : Node, diamond.nodes[id]? = some n ∧
          ∀ p ∈ n.producers, ∃ j, j < i ∧ [3, 1, 2, 0][j]? = some p := by
  have h : diamond.evaluate = .ok [3, 1, 2, 0] := by cbv
  exact ⟨h, evaluate_producers_first diamond [3, 1, 2, 0] h⟩

/-- An order is found if and only if there is a root and every reachable id is a node that lies on
no cycle; otherwise one of three errors is reported, which is then true of the graph.  Written as a
loop over a table of marks, the search comes to an end with the same result, and never misses the
table. -/
theorem evaluate_ok_iff_and_truthful (g : Graph) :
    ((∃ order, g.evaluate = .ok order) ↔
      g.root ≠ none ∧ ∀ id, g.Reachable id → id < g.nodes.length ∧ ¬ g.OnCycle id) ∧
      (∀ e, g.evaluate = .error e → e.TrueOf g) ∧
      ∀ result, Walk.Move.Ends g g.walkStart result ↔ result = g.evaluate := by
  refine ⟨⟨?_, ?_⟩, fun e => trueOf_of_evaluate, fun result => ends_walkStart_iff⟩
  · rintro ⟨order, h⟩
    have horder := dependencyOrder_of_evaluate h
    obtain ⟨root, hroot⟩ := exists_root_of_evaluate h
    refine ⟨by simp [hroot], fun id hid => ?_⟩
    have hmem := (horder.mem_iff id).mpr hid
    exact ⟨horder.known id hmem, horder.first.not_onCycle hmem⟩
  · rintro ⟨hroot, hsound⟩
    cases h : g.evaluate with
    | ok order => exact ⟨order, rfl⟩
    | error e => exact absurd (trueOf_of_evaluate h) (GraphError.not_trueOf hroot hsound)

/-- A graph with a cycle behind a node that has been dealt with, and with an id outside of it. -/
def tangled : Graph where
  nodes :=
    [((Node.new "mix" (.mix .mix)).bind "Color1" (some (.connection 1))).bind "Color2"
        (some (.connection 2)),
      Node.new "plain" .hsv,
      (Node.new "left" .invert).bind "Color" (some (.connection 3)),
      ((Node.new "right" (.mix .add)).bind "Color1" (some (.connection 2))).bind "Color2"
        (some (.connection 9))]
  root := some 0

/-- The cycle of the tangled graph is reported, by a node that is on it. -/
theorem evaluate_tangled :
    tangled.evaluate = .error (.cycle "left") ∧ (GraphError.cycle "left").TrueOf tangled ∧
      Walk.Move.Ends tangled tangled.walkStart (.error (.cycle "left")) ∧
      ¬ ∀ id, tangled.Reachable id → id < tangled.nodes.length ∧ ¬ tangled.OnCycle id := by
  have h : tangled.evaluate = .error (.cycle "left") := by cbv
  obtain ⟨hiff, htrue, hends⟩ := evaluate_ok_iff_and_truthful tangled
  refine ⟨h, htrue _ h, (hends _).mpr h.symm, fun hsound => ?_⟩
  obtain ⟨order, horder⟩ := hiff.mpr ⟨by decide, hsound⟩
  rw [h] at horder
  cases horder

end Graph

end MaterialGraph
