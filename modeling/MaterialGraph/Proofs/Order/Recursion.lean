import Mathlib
import MaterialGraph.Proofs.Order.Evaluate

/-!
# Depth-first search by recursion

The shortest way to write a depth-first search has no stack.  To visit a node is to mark it as one
on the path, to visit its producers from left to right, to mark it as done and to add it to the
order.  The calls that are not finished yet take the place of the stack.

`Trail.visit` and `Trail.visitAll` are that recursion.  A call may come back with a state in which
many more nodes are marked, so what ends the recursion is carried by the type of the result: a
`Trail.Later` state has no unvisited node that was not so before.

Main statement: `Graph.evaluate_eq_postOrder` says that the search with a stack gives what the
recursion gives, the same order or the same error.  The proof reads a state of the recursion as a
state of the search, whatever the rest of the path is (`Trail.search`), and shows by induction along
the calls that the search runs through a visit and then goes on from where the visit has come to
(`Trail.run_search`).
-/

namespace MaterialGraph

/-- A state of the recursion: a mark for every id, and the nodes in the order in which they were
left.  The nodes marked as done are those of the order. -/
structure Trail where
  mark : NodeId → Mark
  order : List NodeId
  done_iff : ∀ id, mark id = .done ↔ id ∈ order

namespace Trail

/-- The state of the recursion before the first visit. -/
def start : Trail where
  mark _ := .unvisited
  order := []
  done_iff _ := by simp

/-- At the start no node has been entered. -/
lemma mark_start (id : NodeId) : start.mark id = .unvisited :=
  rfl

/-- Mark a node as one on the path. -/
def enter (t : Trail) (id : NodeId) (h : t.mark id = .unvisited) : Trail where
  mark other := if other = id then .inProgress else t.mark other
  order := t.order
  done_iff other := by
    by_cases hother : other = id
    · subst hother
      simp [← t.done_iff, h]
    · simp [hother, t.done_iff]

/-- Mark a node as done and add it to the order. -/
def leave (t : Trail) (id : NodeId) : Trail where
  mark other := if other = id then .done else t.mark other
  order := t.order ++ [id]
  done_iff other := by
    by_cases hother : other = id
    · simp [hother]
    · simp [hother, t.done_iff]

/-- The nodes of a graph that have not been entered. -/
def fresh (g : Graph) (t : Trail) : List NodeId :=
  (List.range g.nodes.length).filter fun id => t.mark id = .unvisited

/-- A state that can come after another one: a node that has been entered stays entered. -/
structure Later (t : Trail) extends Trail where
  unvisited : ∀ id, mark id = .unvisited → t.mark id = .unvisited

namespace Later

variable {t : Trail} {id : NodeId} {h : t.mark id = .unvisited}

/-- A state comes after itself. -/
def refl (t : Trail) : Later t where
  toTrail := t
  unvisited _ hid := hid

/-- What comes after a later state is later. -/
def trans (t' : Later t) (t'' : Later t'.toTrail) : Later t where
  toTrail := t''.toTrail
  unvisited id hid := t'.unvisited id (t''.unvisited id hid)

/-- A node that was entered in a state is left in a later one. -/
def leave (t' : Later (t.enter id h)) : Later t where
  toTrail := t'.toTrail.leave id
  unvisited other hother := by
    have hne : other ≠ id := by
      rintro rfl
      simp [Trail.leave] at hother
    have hmark : t'.mark other = .unvisited := by simpa [Trail.leave, hne] using hother
    simpa [Trail.enter, hne] using t'.unvisited other hmark

end Later

variable {g : Graph} {t : Trail} {id : NodeId}

/-- The fresh nodes are the nodes of the graph that are marked so. -/
lemma mem_fresh_iff : id ∈ t.fresh g ↔ id < g.nodes.length ∧ t.mark id = .unvisited := by
  simp [fresh]

/-- Entering a node takes it out of the fresh ones. -/
lemma fresh_enter (h : t.mark id = .unvisited) :
    (t.enter id h).fresh g = (t.fresh g).erase id := by
  unfold fresh
  rw [(List.nodup_range.filter _).erase_eq_filter, List.filter_filter]
  congr 1
  funext other
  by_cases hother : other = id
  · simp [enter, hother]
  · simp [enter, hother]

/-- Entering a node of the graph leaves fewer fresh ones. -/
lemma length_fresh_enter_lt (hid : id < g.nodes.length) (h : t.mark id = .unvisited) :
    ((t.enter id h).fresh g).length < (t.fresh g).length := by
  have hmem : id ∈ t.fresh g := mem_fresh_iff.mpr ⟨hid, h⟩
  rw [fresh_enter, List.length_erase_of_mem hmem]
  exact Nat.sub_lt (List.length_pos_of_mem hmem) Nat.one_pos

/-- A later state has no more fresh nodes. -/
lemma Later.length_fresh_le (t' : Later t) : (t'.fresh g).length ≤ (t.fresh g).length := by
  refine (List.monotone_filter_right _ ?_).length_le
  intro id hid
  simpa using t'.unvisited id (by simpa using hid)

/-! ### The recursion -/

mutual

/-- Visit a node: one that is done is passed over, one on the path closes a cycle, and one that has
not been entered is done after its producers. -/
def visit (g : Graph) (t : Trail) (id : NodeId) : Except GraphError (Later t) :=
  if hid : id < g.nodes.length then
    match h : t.mark id with
    | .done => .ok (.refl t)
    | .inProgress => .error (.cycle g.nodes[id].name)
    | .unvisited => do
      let t' ← visitAll g (t.enter id h) g.nodes[id].producers
      return t'.leave
  else .error (.unknownNode id)
termination_by ((t.fresh g).length, 0)
decreasing_by exact Prod.Lex.left _ _ (length_fresh_enter_lt hid h)

/-- Visit nodes from left to right. -/
def visitAll (g : Graph) (t : Trail) (ids : List NodeId) : Except GraphError (Later t) :=
  match ids with
  | [] => .ok (.refl t)
  | id :: ids => do
    let t' ← visit g t id
    let t'' ← visitAll g t'.toTrail ids
    return t'.trans t''
termination_by ((t.fresh g).length, ids.length + 1)
decreasing_by
  · exact Prod.Lex.right _ (Nat.succ_pos _)
  · exact Prod.Lex.right' _ t'.length_fresh_le (Nat.lt_succ_self _)

end

/-- An id that is not a node of the graph cannot be visited. -/
lemma visit_of_not_lt (hid : ¬ id < g.nodes.length) :
    visit g t id = .error (.unknownNode id) := by
  rw [visit, dif_neg hid]

/-- A node that is done is passed over. -/
lemma visit_of_done (hid : id < g.nodes.length) (h : t.mark id = .done) :
    visit g t id = .ok (.refl t) := by
  rw [visit, dif_pos hid]
  split <;> simp_all

/-- A node on the path closes a cycle. -/
lemma visit_of_inProgress (hid : id < g.nodes.length) (h : t.mark id = .inProgress) :
    visit g t id = .error (.cycle g.nodes[id].name) := by
  rw [visit, dif_pos hid]
  split <;> simp_all

/-- A node that has not been entered is entered, and left after its producers. -/
lemma visit_of_unvisited (hid : id < g.nodes.length) (h : t.mark id = .unvisited) :
    visit g t id = do
      let t' ← visitAll g (t.enter id h) g.nodes[id].producers
      return t'.leave := by
  rw [visit, dif_pos hid]
  split
  · simp_all
  · simp_all
  · rfl

/-! ### States of the recursion as states of the search -/

/-- A state of the recursion and a path, read as a state of the search. -/
def search (g : Graph) (t : Trail) (path : List Visit) : Search :=
  ⟨t.fresh g, path, t.order⟩

section Moves

variable {p : NodeId} {pending : List NodeId} {path : List Visit}

/-- The search passes over a producer that is done. -/
lemma run_search_of_done (hp : p < g.nodes.length) (h : t.mark p = .done) :
    Search.run g (t.search g (⟨id, p :: pending⟩ :: path)) =
      Search.run g (t.search g (⟨id, pending⟩ :: path)) := by
  have hfresh : p ∉ t.fresh g := by simp [mem_fresh_iff, h]
  have horder : p ∈ t.order := (t.done_iff p).mp h
  rw [search, Search.run, List.getElem?_eq_getElem hp]
  simp only [if_neg hfresh, if_pos horder]
  rfl

/-- The search stops at a producer on the path. -/
lemma run_search_of_inProgress (hp : p < g.nodes.length) (h : t.mark p = .inProgress) :
    Search.run g (t.search g (⟨id, p :: pending⟩ :: path)) =
      .error (.cycle g.nodes[p].name) := by
  have hfresh : p ∉ t.fresh g := by simp [mem_fresh_iff, h]
  have horder : p ∉ t.order := by simp [← t.done_iff, h]
  rw [search, Search.run, List.getElem?_eq_getElem hp]
  simp only [if_neg hfresh, if_neg horder]

/-- The search enters a producer that has not been entered. -/
lemma run_search_of_unvisited (hp : p < g.nodes.length) (h : t.mark p = .unvisited) :
    Search.run g (t.search g (⟨id, p :: pending⟩ :: path)) =
      Search.run g
        ((t.enter p h).search g (⟨p, g.nodes[p].producers⟩ :: ⟨id, pending⟩ :: path)) := by
  have hfresh : p ∈ t.fresh g := mem_fresh_iff.mpr ⟨hp, h⟩
  have hn := List.getElem?_eq_getElem hp
  rw [search, Search.run, hn]
  simp only [if_pos hfresh]
  rw [search, fresh_enter, Graph.producersOf_eq hn]
  rfl

/-- The search leaves a node when the recursion does. -/
lemma Later.run_search_leave {h : t.mark id = .unvisited} (t' : Later (t.enter id h)) :
    Search.run g (t'.search g (⟨id, []⟩ :: path)) = Search.run g (t'.leave.search g path) := by
  have hentered : t'.mark id ≠ .unvisited := by
    intro hid
    simpa [enter] using t'.unvisited id hid
  have hfresh : t'.leave.fresh g = t'.fresh g := by
    refine List.filter_congr fun other _ => ?_
    by_cases hother : other = id
    · simp [Later.leave, Trail.leave, hother, hentered]
    · simp [Later.leave, Trail.leave, hother]
  rw [search, Search.run, search, hfresh]
  rfl

end Moves

/-- The search runs through a visit of the recursion and goes on from where that has come to.  It
does so for one producer and for all that are pending. -/
theorem run_search (g : Graph) :
    (∀ (t : Trail) (p : NodeId), ∀ id pending path,
      Search.run g (t.search g (⟨id, p :: pending⟩ :: path)) =
        visit g t p >>= fun t' => Search.run g (t'.search g (⟨id, pending⟩ :: path))) ∧
      ∀ (t : Trail) (ids : List NodeId), ∀ id path,
        Search.run g (t.search g (⟨id, ids⟩ :: path)) =
          visitAll g t ids >>= fun t' => Search.run g (t'.search g (⟨id, []⟩ :: path)) := by
  refine visit.mutual_induct g _ _ ?done ?inProgress ?unvisited ?unknown ?nil ?cons
  case done =>
    intro t p hp hmark id pending path
    rw [visit_of_done hp hmark, run_search_of_done hp hmark]
    rfl
  case inProgress =>
    intro t p hp hmark id pending path
    rw [visit_of_inProgress hp hmark, run_search_of_inProgress hp hmark]
    rfl
  case unvisited =>
    intro t p hp hmark ih id pending path
    rw [visit_of_unvisited hp hmark, run_search_of_unvisited hp hmark, ih]
    simp only [bind_assoc, pure_bind, Later.run_search_leave]
  case unknown =>
    intro t p hp id pending path
    have hn := List.getElem?_eq_none_iff.mpr (Nat.le_of_not_lt hp)
    rw [visit_of_not_lt hp, search, Search.run, hn]
    rfl
  case nil =>
    intro t id path
    rw [visitAll]
    rfl
  case cons =>
    intro t p ids ihvisit ihrest id path
    -- the rest is visited from the state that the first visit has come to
    rw [ihvisit, visitAll]
    simp only [bind_assoc, pure_bind, ihrest]
    rfl

end Trail

namespace Graph

/-- The order in which the recursion leaves the nodes when it starts with a visit to the given
one. -/
def postOrder (g : Graph) (root : NodeId) : Except GraphError (List NodeId) := do
  let t ← Trail.start.visit g root
  return t.order

variable {g : Graph} {root : NodeId}

/-- The search starts as a visit to the root does, once the root has been entered. -/
lemma initial_eq_search (hlt : root < g.nodes.length) :
    Search.initial g root =
      (Trail.start.enter root (Trail.mark_start root)).search g
        [⟨root, g.nodes[root].producers⟩] := by
  have hfresh : Trail.start.fresh g = List.range g.nodes.length := by
    simp [Trail.fresh, Trail.start]
  rw [Search.initial, producersOf_eq (List.getElem?_eq_getElem hlt), Trail.search,
    Trail.fresh_enter, hfresh]
  rfl

/-- The search from a node gives what a visit to the node gives. -/
lemma run_initial (hlt : root < g.nodes.length) :
    Search.run g (Search.initial g root) = g.postOrder root := by
  have hmark := Trail.mark_start root
  calc Search.run g (Search.initial g root)
    _ = (Trail.start.enter root hmark).visitAll g g.nodes[root].producers >>=
          fun t => Search.run g (t.search g [⟨root, []⟩]) := by
        rw [initial_eq_search hlt]
        exact (Trail.run_search g).2 _ _ _ _
    _ = (Trail.start.enter root hmark).visitAll g g.nodes[root].producers >>=
          fun t => Search.run g (t.leave.search g []) := by
        simp only [Trail.Later.run_search_leave]
    _ = (Trail.start.enter root hmark).visitAll g g.nodes[root].producers >>=
          fun t => pure t.leave.order := by
        simp only [Trail.search, Search.run]
        rfl
    _ = g.postOrder root := by
        rw [postOrder, Trail.visit_of_unvisited hlt hmark]
        simp only [bind_assoc, pure_bind]

/-- The search with a stack and the recursion agree on every graph that has a root, whatever its
cycles and its connections to missing nodes are: both give the same order, or stop at the same
error.  The loop over a table of marks comes to that end as well. -/
theorem evaluate_eq_postOrder (g : Graph) (root : NodeId) (hroot : g.root = some root) :
    g.evaluate = g.postOrder root ∧
      ∀ result, Walk.Move.Ends g g.walkStart result ↔ result = g.postOrder root := by
  have hevaluate : g.evaluate = g.postOrder root := by
    unfold evaluate
    by_cases hlt : root < g.nodes.length
    · simp only [hroot, List.getElem?_eq_getElem hlt]
      exact run_initial hlt
    · have hn := List.getElem?_eq_none_iff.mpr (Nat.le_of_not_lt hlt)
      simp only [hroot, hn, postOrder, Trail.visit_of_not_lt hlt]
      rfl
  refine ⟨hevaluate, fun result => ?_⟩
  rw [ends_walkStart_iff, hevaluate]

/-- A graph with a cycle inside another one and with two connections to missing nodes. -/
def knotted : Graph where
  nodes :=
    [((Node.new "mix" (.mix .mix)).bind "Color1" (some (.connection 1))).bind "Color2"
        (some (.connection 7)),
      ((Node.new "outer" (.mix .add)).bind "Color1" (some (.connection 2))).bind "Color2"
        (some (.connection 3)),
      Node.new "plain" .hsv,
      ((Node.new "inner" (.mix .add)).bind "Color1" (some (.connection 2))).bind "Color2"
        (some (.connection 4)),
      (((Node.new "knot" (.mix .add)).bind "Fac" (some (.connection 3))).bind "Color1"
        (some (.connection 9))).bind "Color2" (some (.connection 1))]
  root := some 0

/-- In the knotted graph, both stop at the inner cycle, which is the first thing they meet. -/
theorem evaluate_eq_postOrder_knotted :
    knotted.postOrder 0 = .error (.cycle "inner") ∧
      knotted.evaluate = .error (.cycle "inner") ∧
      Walk.Move.Ends knotted knotted.walkStart (.error (.cycle "inner")) := by
  obtain ⟨hevaluate, hends⟩ := evaluate_eq_postOrder knotted 0 rfl
  have h : knotted.evaluate = .error (.cycle "inner") := by cbv
  rw [h] at hevaluate
  exact ⟨hevaluate.symm, h, (hends _).mpr hevaluate⟩

end Graph

end MaterialGraph
