import MaterialGraph.Proofs.Order.Search

/-!
# The search over a table of marks

The usual way to write a depth-first search is a loop over three pieces of mutable state: a table
with a mark for every node, a stack of nodes with the number of the producer to look at next, and
the order so far.  Such a loop has no reason of its own to end, and it can miss its table.

`Walk.move` is one round of that loop.  `Walk.Move.Ends` says that the rounds come to an end with a
result; there is no end after a miss.  Main statement: `Graph.ends_walkStart_iff` says that the loop
comes to an end on every graph, and that its result is that of `Graph.evaluate`.

The proof is a simulation.  `Search.walk` reads a state of the search as a state of the loop, and
as long as the state of the search is valid, each of them moves as the other does.
-/

namespace MaterialGraph

/-- The states of a node: not entered, on the path, or done. -/
inductive Mark where
  | unvisited
  | inProgress
  | done
  deriving DecidableEq

/-- An access to a table at a place that it does not have. -/
structure OutOfBounds where
  index : Nat
  size : Nat
  deriving DecidableEq

/-- A state of the loop: the marks by id, the stack of nodes on the path, each with the number of
the producer to look at next, and the nodes that are done. -/
structure Walk where
  marks : List Mark
  stack : List (NodeId × Nat)
  order : List NodeId

namespace Walk

/-- What a round of the loop comes to: the loop goes on, stops with a result, or misses its
table. -/
inductive Move where
  | goOn (w : Walk)
  | stop (result : Except GraphError (List NodeId))
  | miss (access : OutOfBounds)

/-- Write a mark into a table. -/
def write (marks : List Mark) (id : NodeId) (mark : Mark) : Except OutOfBounds (List Mark) :=
  if id < marks.length then .ok (marks.set id mark) else .error ⟨id, marks.length⟩

/-- One round of the loop. -/
def move (g : Graph) (w : Walk) : Move :=
  match w.stack with
  | [] => .stop (.ok w.order)
  | (id, next) :: stack =>
    match g.node id with
    | .error e => .stop (.error e)
    | .ok n =>
      match n.producers[next]? with
      | none =>
        match write w.marks id .done with
        | .error access => .miss access
        | .ok marks => .goOn ⟨marks, stack, w.order ++ [id]⟩
      | some producer =>
        match w.marks[producer]? with
        | none => .stop (.error (.unknownNode producer))
        | some .done => .goOn ⟨w.marks, (id, next + 1) :: stack, w.order⟩
        | some .inProgress =>
          match g.node producer with
          | .error e => .stop (.error e)
          | .ok m => .stop (.error (.cycle m.name))
        | some .unvisited =>
          match write w.marks producer .inProgress with
          | .error access => .miss access
          | .ok marks => .goOn ⟨marks, (producer, 0) :: (id, next + 1) :: stack, w.order⟩

/-- After some rounds, the loop stops with a result. -/
inductive Move.Ends (g : Graph) : Move → Except GraphError (List NodeId) → Prop where
  | stop {result : Except GraphError (List NodeId)} : Ends g (.stop result) result
  | goOn {w : Walk} {result : Except GraphError (List NodeId)} (hrest : Ends g (w.move g) result) :
      Ends g (.goOn w) result

/-- The loop does not have two results. -/
lemma Move.Ends.unique {g : Graph} {move : Move} {result result' : Except GraphError (List NodeId)}
    (h : Ends g move result) (h' : Ends g move result') : result = result' := by
  induction h with
  | stop =>
    cases h' with
    | stop => rfl
  | goOn _ ih =>
    cases h' with
    | goOn hrest => exact ih hrest

end Walk

/-- What comes before the first round: the loop starts at the root, if there is one. -/
def Graph.walkStart (g : Graph) : Walk.Move :=
  match g.root with
  | none => .stop (.error .noRoot)
  | some root =>
    match g.node root with
    | .error e => .stop (.error e)
    | .ok _ =>
      match Walk.write (List.replicate g.nodes.length .unvisited) root .inProgress with
      | .error access => .miss access
      | .ok marks => .goOn ⟨marks, [(root, 0)], []⟩

/-! ### States of the search as states of the loop -/

namespace Search

/-- The mark of a node in a state of the search. -/
def mark (s : Search) (id : NodeId) : Mark :=
  if id ∈ s.fresh then .unvisited else if id ∈ s.order then .done else .inProgress

/-- The number of the producer that a node on the path looks at next. -/
def next (g : Graph) (v : Visit) : Nat :=
  (g.producersOf v.node).length - v.pending.length

/-- A state of the search, read as a state of the loop. -/
def walk (g : Graph) (s : Search) : Walk where
  marks := (List.range g.nodes.length).map s.mark
  stack := s.path.map fun v => (v.node, next g v)
  order := s.order

end Search

namespace Walk

variable {g : Graph}

/-- Writing at a place of the table changes the mark there and no other one. -/
lemma write_map_range (f f' : NodeId → Mark) {n id : Nat} (hid : id < n)
    (hne : ∀ other, other < n → other ≠ id → f' other = f other) :
    write ((List.range n).map f) id (f' id) = .ok ((List.range n).map f') := by
  unfold write
  rw [if_pos (by simpa using hid)]
  congr 1
  apply List.ext_getElem?
  intro i
  by_cases hi : i = id
  · subst hi
    simp [hid]
  · rw [List.getElem?_set_ne (Ne.symm hi)]
    by_cases hin : i < n
    · simp [hin, hne i hin hi]
    · simp [Nat.le_of_not_lt hin]

end Walk

namespace Search

variable {g : Graph} {fresh order pending : List NodeId} {path : List Visit} {id p : NodeId}

/-- The loop looks at the first of the pending producers. -/
lemma getElem?_next {v : Visit} (h : v.pending <:+ g.producersOf v.node) :
    (g.producersOf v.node)[next g v]? = v.pending.head? := by
  obtain ⟨looked, hlooked⟩ := h
  have hnext : next g v = looked.length := by
    unfold next
    rw [← hlooked, List.length_append, Nat.add_sub_cancel]
  rw [hnext, ← hlooked, List.getElem?_append_right (Nat.le_refl _), Nat.sub_self,
    List.head?_eq_getElem?]

/-- Taking the first of the pending producers off moves the number on by one. -/
lemma next_tail (h : p :: pending <:+ g.producersOf id) :
    next g ⟨id, pending⟩ = next g ⟨id, p :: pending⟩ + 1 := by
  have hle := h.length_le
  unfold next
  simp only [List.length_cons] at hle ⊢
  omega

/-- A node that has just been entered looks at its first producer next. -/
lemma next_producersOf : next g ⟨id, g.producersOf id⟩ = 0 :=
  Nat.sub_self _

/-- The table has a mark for every node and for nothing else. -/
lemma getElem?_marks {s : Search} :
    (s.walk g).marks[p]? = if p < g.nodes.length then some (s.mark p) else none := by
  by_cases hp : p < g.nodes.length
  · simp [walk, hp]
  · simp [walk, hp]

/-! ### The loop moves as the search does -/

namespace Valid

/-- The node at the head of the path is found, and the loop looks at its first pending producer. -/
lemma exists_top (h : Valid g ⟨fresh, ⟨id, pending⟩ :: path, order⟩) :
    ∃ n, g.node id = .ok n ∧ n.producers[next g ⟨id, pending⟩]? = pending.head? := by
  have hlt : id < g.nodes.length := h.lt_of_mem (by simp [entered])
  obtain ⟨n, hn⟩ := Graph.exists_node hlt
  refine ⟨n, Graph.node_eq_ok_iff.mpr hn, ?_⟩
  rw [← Graph.producersOf_eq hn]
  exact getElem?_next (h.pending _ List.mem_cons_self)

/-- No node is fresh and entered. -/
lemma not_mem_fresh {s : Search} (h : Valid g s) (hid : id ∈ s.entered) : id ∉ s.fresh := by
  intro hfresh
  exact (List.nodup_append.mp h.nodup).2.2 id hfresh id hid rfl

/-- The loop leaves a node with nothing pending. -/
lemma move_leave (h : Valid g ⟨fresh, ⟨id, []⟩ :: path, order⟩) :
    (walk g ⟨fresh, ⟨id, []⟩ :: path, order⟩).move g =
      .goOn (walk g ⟨fresh, path, order ++ [id]⟩) := by
  obtain ⟨n, hnode, hnext⟩ := h.exists_top
  have hfresh : id ∉ fresh := h.not_mem_fresh (by simp [entered])
  have hdone : mark ⟨fresh, path, order ++ [id]⟩ id = .done := by simp [mark, hfresh]
  have hlt : id < g.nodes.length := h.lt_of_mem (by simp [entered])
  have hwrite := Walk.write_map_range (mark ⟨fresh, ⟨id, []⟩ :: path, order⟩)
    (mark ⟨fresh, path, order ++ [id]⟩) hlt (fun other _ hother => by simp [mark, hother])
  rw [hdone] at hwrite
  simp only [Walk.move, walk, List.map_cons, hnode, hnext, List.head?_nil, hwrite]

/-- The loop enters a fresh producer. -/
lemma move_enter (h : Valid g ⟨fresh, ⟨id, p :: pending⟩ :: path, order⟩) (hp : p ∈ fresh) :
    (walk g ⟨fresh, ⟨id, p :: pending⟩ :: path, order⟩).move g =
      .goOn (walk g ⟨fresh.erase p, ⟨p, g.producersOf p⟩ :: ⟨id, pending⟩ :: path, order⟩) := by
  obtain ⟨n, hnode, hnext⟩ := h.exists_top
  have hentered := h.enter hp
  have hlt : p < g.nodes.length := hentered.lt_of_mem (by simp [entered])
  have hmark : (walk g ⟨fresh, ⟨id, p :: pending⟩ :: path, order⟩).marks[p]? =
      some .unvisited := by
    rw [getElem?_marks, if_pos hlt, mark, if_pos hp]
  have hfresh : p ∉ fresh.erase p := hentered.not_mem_fresh (by simp [entered])
  have horder : p ∉ order := fun hmem => h.not_mem_fresh (by simp [entered, hmem]) hp
  have hprogress : mark ⟨fresh.erase p, ⟨p, g.producersOf p⟩ :: ⟨id, pending⟩ :: path, order⟩ p =
      .inProgress := by
    simp [mark, hfresh, horder]
  have hwrite := Walk.write_map_range (mark ⟨fresh, ⟨id, p :: pending⟩ :: path, order⟩)
    (mark ⟨fresh.erase p, ⟨p, g.producersOf p⟩ :: ⟨id, pending⟩ :: path, order⟩) hlt
    (fun other _ hother => by simp [mark, List.mem_erase_of_ne hother])
  rw [hprogress] at hwrite
  simp only [walk] at hmark
  simp only [Walk.move, walk, List.map_cons, hnode, hnext, List.head?_cons, hmark, hwrite,
    next_producersOf, next_tail (h.pending _ List.mem_cons_self)]

/-- The loop passes over a producer that is done. -/
lemma move_pass (h : Valid g ⟨fresh, ⟨id, p :: pending⟩ :: path, order⟩) (hp : p ∈ order) :
    (walk g ⟨fresh, ⟨id, p :: pending⟩ :: path, order⟩).move g =
      .goOn (walk g ⟨fresh, ⟨id, pending⟩ :: path, order⟩) := by
  obtain ⟨n, hnode, hnext⟩ := h.exists_top
  have hentered : p ∈ entered ⟨fresh, ⟨id, p :: pending⟩ :: path, order⟩ := by
    simp [entered, hp]
  have hmark : (walk g ⟨fresh, ⟨id, p :: pending⟩ :: path, order⟩).marks[p]? = some .done := by
    rw [getElem?_marks, if_pos (h.lt_of_mem hentered), mark, if_neg (h.not_mem_fresh hentered),
      if_pos hp]
  simp only [walk] at hmark
  simp only [Walk.move, walk, List.map_cons, hnode, hnext, List.head?_cons, hmark,
    next_tail (h.pending _ List.mem_cons_self)]
  rfl

/-- The loop stops at a producer outside the graph. -/
lemma move_unknownNode (h : Valid g ⟨fresh, ⟨id, p :: pending⟩ :: path, order⟩)
    (hp : g.nodes[p]? = none) :
    (walk g ⟨fresh, ⟨id, p :: pending⟩ :: path, order⟩).move g =
      .stop (.error (.unknownNode p)) := by
  obtain ⟨n, hnode, hnext⟩ := h.exists_top
  have hmark : (walk g ⟨fresh, ⟨id, p :: pending⟩ :: path, order⟩).marks[p]? = none := by
    rw [getElem?_marks, if_neg (Nat.not_lt.mpr (List.getElem?_eq_none_iff.mp hp))]
  simp only [walk] at hmark
  simp only [Walk.move, walk, List.map_cons, hnode, hnext, List.head?_cons, hmark]

/-- The loop stops at a producer on the path. -/
lemma move_cycle (h : Valid g ⟨fresh, ⟨id, p :: pending⟩ :: path, order⟩) {m : Node}
    (hm : g.nodes[p]? = some m) (hfresh : p ∉ fresh) (horder : p ∉ order) :
    (walk g ⟨fresh, ⟨id, p :: pending⟩ :: path, order⟩).move g =
      .stop (.error (.cycle m.name)) := by
  obtain ⟨n, hnode, hnext⟩ := h.exists_top
  obtain ⟨hlt, _⟩ := List.getElem?_eq_some_iff.mp hm
  have hmark : (walk g ⟨fresh, ⟨id, p :: pending⟩ :: path, order⟩).marks[p]? =
      some .inProgress := by
    rw [getElem?_marks, if_pos hlt, mark, if_neg hfresh, if_neg horder]
  have hproducer : g.node p = .ok m := Graph.node_eq_ok_iff.mpr hm
  simp only [walk] at hmark
  simp only [Walk.move, walk, List.map_cons, hnode, hnext, List.head?_cons, hmark, hproducer]

/-- From a valid state, the loop comes to the end that the search comes to. -/
theorem ends_run {s : Search} (h : Valid g s) :
    Walk.Move.Ends g (.goOn (walk g s)) (run g s) := by
  fun_induction run g s with
  | case1 => exact .goOn .stop
  | case2 fresh id path order ih =>
    refine .goOn ?_
    rw [h.move_leave]
    exact ih h.leave
  | case3 fresh id p pending path order hp =>
    refine .goOn ?_
    rw [h.move_unknownNode hp]
    exact .stop
  | case4 fresh id p pending path order n hn hfresh ih =>
    refine .goOn ?_
    rw [h.move_enter hfresh]
    exact ih (h.enter hfresh)
  | case5 fresh id p pending path order n hn hfresh horder ih =>
    refine .goOn ?_
    rw [h.move_pass horder]
    exact ih (h.pass horder)
  | case6 fresh id p pending path order n hn hfresh horder =>
    refine .goOn ?_
    rw [h.move_cycle hn hfresh horder]
    exact .stop

end Valid

end Search

/-- The table of the loop starts with the root marked and nothing else. -/
lemma Search.write_initial {g : Graph} {root : NodeId} (hlt : root < g.nodes.length) :
    Walk.write (List.replicate g.nodes.length .unvisited) root .inProgress =
      .ok ((List.range g.nodes.length).map (mark (initial g root))) := by
  have htable : List.replicate g.nodes.length Mark.unvisited =
      (List.range g.nodes.length).map fun _ => Mark.unvisited := by
    rw [List.map_const', List.length_range]
  have hfresh : ∀ other,
      other ∈ (initial g root).fresh ↔ other ≠ root ∧ other < g.nodes.length := by
    intro other
    rw [initial, List.nodup_range.mem_erase_iff, List.mem_range]
  have hprogress : mark (initial g root) root = .inProgress := by
    rw [mark, if_neg (by rw [hfresh]; simp)]
    rfl
  have hwrite := Walk.write_map_range (fun _ => Mark.unvisited) (mark (initial g root)) hlt
    (fun other hother hne => by rw [mark, if_pos ((hfresh other).mpr ⟨hne, hother⟩)])
  rwa [hprogress, ← htable] at hwrite

/-- From the start, the loop comes to the end that the search comes to. -/
lemma Graph.ends_evaluate (g : Graph) : Walk.Move.Ends g g.walkStart g.evaluate := by
  unfold walkStart evaluate
  cases hroot : g.root with
  | none => exact .stop
  | some root =>
    cases hnode : g.nodes[root]? with
    | none =>
      simp only [node, hnode]
      exact .stop
    | some n =>
      obtain ⟨hlt, _⟩ := List.getElem?_eq_some_iff.mp hnode
      have hends := (Search.Valid.start hroot hlt).ends_run
      simp only [node, hnode, Search.write_initial hlt]
      simpa [Search.walk, Search.initial, Search.next_producersOf] using hends

/-- The loop comes to an end on every graph, with what the search gives and nothing else. -/
theorem Graph.ends_walkStart_iff {g : Graph} {result : Except GraphError (List NodeId)} :
    Walk.Move.Ends g g.walkStart result ↔ result = g.evaluate := by
  constructor
  · intro h
    exact h.unique g.ends_evaluate
  · rintro rfl
    exact g.ends_evaluate

end MaterialGraph
