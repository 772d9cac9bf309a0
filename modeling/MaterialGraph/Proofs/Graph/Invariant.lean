import Mathlib
import MaterialGraph.Proofs.Graph.Authoring
import MaterialGraph.Proofs.Order.Evaluate

/-!
# What every history keeps

Nodes are added as they are made and bound where they stand (`Graph.Edit.inPlace`).  Such an
operation adds a node, edits one node, or points out a node as the root (`Edit.apply_cases`), and
every statement of this file is read off these three cases and carried along a history by
`edited_of_performed`.

* Ids stay valid: no node is ever lost, and the name and kind of a node never change
  (`Graph.Extends`).
* The root is a node of the graph.
* The producers of every node are nodes of the graph (`Graph.Closed`), unless a socket was connected
  to an id that is not looked at.  Then no search from the root comes upon an unknown node.
-/

namespace MaterialGraph

/-! ### Histories in place -/

/-- An operation that leaves nodes where they are and adds them as they are made. -/
def Graph.Edit.inPlace : Graph.Edit → Bool
  | add _ _ edits => edits.isEmpty
  | replace _ _ _ _ => false
  | _ => true

/-- An operation that makes no connection without looking at the producer. -/
def Graph.Edit.checked : Graph.Edit → Bool
  | attach _ _ _ => false
  | _ => true

/-- The operations of a history that succeed. -/
def Graph.performed (g : Graph) : List Graph.Edit → List Graph.Edit
  | [] => []
  | e :: es =>
    match e.apply g with
    | .ok g' => e :: g'.performed es
    | .error _ => g.performed es

namespace Graph

/-- Only operations of a history are performed. -/
lemma mem_of_mem_performed {g : Graph} {edits : List Edit} {e : Edit}
    (h : e ∈ g.performed edits) : e ∈ edits := by
  induction edits generalizing g with
  | nil => exact h
  | cons first edits ih =>
    unfold performed at h
    cases hfirst : first.apply g with
    | error _ =>
      rw [hfirst] at h
      exact List.mem_cons_of_mem _ (ih h)
    | ok g' =>
      simp only [hfirst] at h
      rcases List.mem_cons.mp h with rfl | h
      · exact List.mem_cons_self
      · exact List.mem_cons_of_mem _ (ih h)

/-- What the operations that are performed keep is kept by the history. -/
lemma edited_of_performed {P : Graph → Prop} {edits : List Edit} {g : Graph} (hg : P g)
    (hstep : ∀ e ∈ g.performed edits, ∀ h h' : Graph, P h → e.apply h = .ok h' → P h') :
    P (g.edited edits) := by
  induction edits generalizing g with
  | nil => exact hg
  | cons e edits ih =>
    unfold edited
    unfold performed at hstep
    cases happly : e.apply g with
    | error _ =>
      simp only [happly] at hstep
      exact ih hg hstep
    | ok g' =>
      simp only [happly] at hstep
      have hg' : P g' := hstep e List.mem_cons_self g g' hg happly
      exact ih hg' fun e' he' => hstep e' (List.mem_cons_of_mem _ he')

end Graph

/-! ### What an operation does -/

/-- An edit of a node binds one of its sockets anew, and to a producer only if it connects it. -/
lemma Node.exists_bind_of_apply {e : Node.Edit} {n n' : Node} (h : e.apply n = .ok n') :
    ∃ socket binding, n' = n.bind socket binding ∧
      ∀ p, binding = some (.connection p) → e = .connect socket p := by
  cases e with
  | setValue socket value =>
    obtain ⟨_, _, _, rfl⟩ := setValue_eq_ok_iff.mp h
    exact ⟨socket, _, rfl, by simp⟩
  | connect socket producer =>
    obtain ⟨_, _, rfl⟩ := connect_eq_ok_iff.mp h
    exact ⟨socket, _, rfl, by simp⟩
  | disconnect socket =>
    obtain ⟨_, _, rfl⟩ := disconnect_eq_ok_iff.mp h
    refine ⟨socket, _, rfl, fun p hp => ?_⟩
    -- a default is a literal
    obtain ⟨value, _, hvalue⟩ := Option.map_eq_some_iff.mp hp
    cases hvalue

/-- Binding a socket anew leaves the other sockets as they are. -/
lemma Socket.mem_or_binding_of_mem_rebind {name : String} {binding : Option Binding}
    {sockets : List Socket} {s : Socket} (h : s ∈ Socket.rebind name binding sockets) :
    s ∈ sockets ∨ s.binding = binding := by
  induction sockets with
  | nil => simp [Socket.rebind] at h
  | cons first rest ih =>
    unfold Socket.rebind at h
    split at h
    · rcases List.mem_cons.mp h with rfl | h
      · exact Or.inr rfl
      · exact Or.inl (List.mem_cons_of_mem _ h)
    · rcases List.mem_cons.mp h with rfl | h
      · exact Or.inl List.mem_cons_self
      · exact (ih h).imp_left (List.mem_cons_of_mem _)

/-- After a socket has been bound anew, a producer of the node was one before or is the new one. -/
lemma Node.mem_producers_bind {n : Node} {socket : String} {binding : Option Binding} {p : NodeId}
    (h : p ∈ (n.bind socket binding).producers) :
    p ∈ n.producers ∨ binding = some (.connection p) := by
  obtain ⟨s, hs, hbinding⟩ := mem_producers_iff.mp h
  rcases Socket.mem_or_binding_of_mem_rebind hs with hold | hnew
  · exact Or.inl (mem_producers_iff.mpr ⟨s, hold, hbinding⟩)
  · exact Or.inr (hnew ▸ hbinding)

namespace Graph

/-- An update that succeeds edits the node at its place. -/
lemma exists_set_of_update {g g' : Graph} {id : NodeId} {edit : Node.Edit}
    (h : g.update id edit.apply = .ok g') :
    ∃ n n', g.nodes[id]? = some n ∧ edit.apply n = .ok n' ∧
      g' = { g with nodes := g.nodes.set id n' } := by
  cases hn : g.nodes[id]? with
  | none => simp [update, node, hn] at h
  | some n =>
    obtain ⟨n', hedit, hg'⟩ := (update_eq_ok_iff hn).mp h
    exact ⟨n, n', rfl, hedit, hg'⟩

/-- An operation in place adds a new node, edits the node at one place, or points out a node as the
root.  An edit that connects a socket is about a node of the graph if it is checked. -/
lemma Edit.apply_cases {e : Edit} {g g' : Graph} (hplace : e.inPlace) (h : e.apply g = .ok g') :
    (∃ name kind, g' = g.add (Node.new name kind)) ∨
      (∃ id n edit n', g.nodes[id]? = some n ∧ Node.Edit.apply edit n = .ok n' ∧
        g' = { g with nodes := g.nodes.set id n' } ∧
        ∀ socket p, edit = .connect socket p → e.checked → p < g.nodes.length) ∨
      ∃ id, id < g.nodes.length ∧ g' = { g with root := some id } := by
  cases e with
  | add name kind edits =>
    obtain rfl : edits = [] := List.isEmpty_iff.mp hplace
    exact Or.inl ⟨name, kind, (Except.ok.inj h).symm⟩
  | replace id name kind edits => cases hplace
  | setValue id socket value =>
    obtain ⟨n, n', hn, hedit, hg'⟩ := @exists_set_of_update g g' id (.setValue socket value) h
    exact Or.inr (Or.inl ⟨id, n, _, n', hn, hedit, hg', by simp⟩)
  | disconnect id socket =>
    obtain ⟨n, n', hn, hedit, hg'⟩ := @exists_set_of_update g g' id (.disconnect socket) h
    exact Or.inr (Or.inl ⟨id, n, _, n', hn, hedit, hg', by simp⟩)
  | attach id socket producer =>
    obtain ⟨n, n', hn, hedit, hg'⟩ := @exists_set_of_update g g' id (.connect socket producer) h
    exact Or.inr (Or.inl ⟨id, n, _, n', hn, hedit, hg', by simp [Edit.checked]⟩)
  | connect id socket producer =>
    have h : g.connect id socket producer = .ok g' := h
    unfold Graph.connect at h
    cases hproducer : g.node producer with
    | error _ => simp [hproducer] at h
    | ok m =>
      simp only [hproducer] at h
      have hlt : producer < g.nodes.length :=
        (List.getElem?_eq_some_iff.mp (node_eq_ok_iff.mp hproducer)).1
      obtain ⟨n, n', hn, hedit, hg'⟩ := @exists_set_of_update g g' id (.connect socket producer) h
      refine Or.inr (Or.inl ⟨id, n, _, n', hn, hedit, hg', ?_⟩)
      rintro socket' p hp -
      obtain ⟨rfl, rfl⟩ : socket = socket' ∧ producer = p := by simpa using hp
      exact hlt
  | setRoot id =>
    have h : g.setRoot id = .ok g' := h
    unfold Graph.setRoot at h
    cases hid : g.node id with
    | error _ => simp [hid] at h
    | ok m =>
      simp only [hid, Except.ok.injEq] at h
      exact Or.inr (Or.inr ⟨id, (List.getElem?_eq_some_iff.mp (node_eq_ok_iff.mp hid)).1, h.symm⟩)

/-! ### Ids stay valid -/

/-- A graph has every node of another one in the same place, with the same name and kind. -/
structure Extends (g g' : Graph) : Prop where
  length_le : g.nodes.length ≤ g'.nodes.length
  kept : ∀ (id : NodeId) (n : Node), g.nodes[id]? = some n →
    ∃ n' : Node, g'.nodes[id]? = some n' ∧ n'.name = n.name ∧ n'.kind = n.kind

/-- A graph extends itself. -/
lemma Extends.refl (g : Graph) : g.Extends g :=
  ⟨Nat.le_refl _, fun _ n hn => ⟨n, hn, rfl, rfl⟩⟩

/-- What extends an extension extends the first graph. -/
lemma Extends.trans {g g' g'' : Graph} (h : g.Extends g') (h' : g'.Extends g'') :
    g.Extends g'' := by
  refine ⟨Nat.le_trans h.length_le h'.length_le, fun id n hn => ?_⟩
  obtain ⟨n', hn', hname', hkind'⟩ := h.kept id n hn
  obtain ⟨n'', hn'', hname'', hkind''⟩ := h'.kept id n' hn'
  exact ⟨n'', hn'', hname''.trans hname', hkind''.trans hkind'⟩

/-- An operation in place extends the graph. -/
lemma Edit.extends_apply {e : Edit} {g g' : Graph} (hplace : e.inPlace)
    (h : e.apply g = .ok g') : g.Extends g' := by
  rcases e.apply_cases hplace h with ⟨name, kind, rfl⟩ | ⟨id, n, edit, n', hn, hedit, rfl, _⟩ |
    ⟨id, _, rfl⟩
  · refine ⟨by simp [Graph.add], fun id n hn => ⟨n, ?_, rfl, rfl⟩⟩
    have hlt : id < g.nodes.length := (List.getElem?_eq_some_iff.mp hn).1
    rw [Graph.add, List.getElem?_append_left hlt, hn]
  · refine ⟨by simp, fun id' m hm => ?_⟩
    have hlt : id < g.nodes.length := (List.getElem?_eq_some_iff.mp hn).1
    by_cases hid : id = id'
    · subst hid
      obtain rfl : n = m := Option.some.inj (hn.symm.trans hm)
      obtain ⟨socket, binding, rfl, _⟩ := Node.exists_bind_of_apply hedit
      exact ⟨_, List.getElem?_set_self hlt, rfl, rfl⟩
    · exact ⟨m, by simpa [List.getElem?_set_ne hid] using hm, rfl, rfl⟩
  · exact ⟨Nat.le_refl _, fun _ m hm => ⟨m, hm, rfl, rfl⟩⟩

/-- A history in place extends the graph. -/
lemma extends_edited {g : Graph} {edits : List Edit} (hplace : ∀ e ∈ edits, e.inPlace) :
    g.Extends (g.edited edits) :=
  edited_of_performed (Extends.refl g) fun e he _ _ hextends happly =>
    hextends.trans (e.extends_apply (hplace e (mem_of_mem_performed he)) happly)

/-! ### Roots and producers -/

/-- The root is a node of the graph. -/
def Rooted (g : Graph) : Prop :=
  ∀ root, g.root = some root → root < g.nodes.length

/-- The producers of every node are nodes of the graph. -/
def Closed (g : Graph) : Prop :=
  ∀ n ∈ g.nodes, ∀ p ∈ n.producers, p < g.nodes.length

/-- An operation in place leaves the root in the graph. -/
lemma Rooted.apply {e : Edit} {g g' : Graph} (hg : g.Rooted) (hplace : e.inPlace)
    (h : e.apply g = .ok g') : g'.Rooted := by
  intro root hroot
  have hlength := (e.extends_apply hplace h).length_le
  rcases e.apply_cases hplace h with ⟨name, kind, rfl⟩ | ⟨id, n, edit, n', hn, hedit, rfl, _⟩ |
    ⟨id, hid, rfl⟩
  · exact Nat.lt_of_lt_of_le (hg root hroot) hlength
  · exact Nat.lt_of_lt_of_le (hg root hroot) hlength
  · obtain rfl := Option.some.inj hroot
    exact hid

/-- New nodes have no producers. -/
lemma producers_new (name : String) (kind : Kind) : (Node.new name kind).producers = [] := by
  have hsocket : ∀ spec : SocketSpec, (Socket.ofSpec spec).producer? = none := by
    intro spec
    cases hdefault : spec.default <;> simp [Socket.ofSpec, Socket.producer?, hdefault]
  simp [Node.new, Node.producers, List.filterMap_map, hsocket]

/-- A checked operation in place leaves the producers in the graph. -/
lemma Closed.apply {e : Edit} {g g' : Graph} (hg : g.Closed) (hplace : e.inPlace)
    (hchecked : e.checked) (h : e.apply g = .ok g') : g'.Closed := by
  intro m hm p hp
  have hlength := (e.extends_apply hplace h).length_le
  rcases e.apply_cases hplace h with ⟨name, kind, rfl⟩ |
    ⟨id, n, edit, n', hn, hedit, rfl, hproducer⟩ | ⟨id, hid, rfl⟩
  · rcases List.mem_append.mp hm with hold | hnew
    · exact Nat.lt_of_lt_of_le (hg m hold p hp) hlength
    · rw [List.mem_singleton.mp hnew, producers_new] at hp
      simp at hp
  · refine Nat.lt_of_lt_of_le ?_ hlength
    rcases List.mem_or_eq_of_mem_set hm with hold | rfl
    · exact hg m hold p hp
    · obtain ⟨socket, binding, rfl, hbinding⟩ := Node.exists_bind_of_apply hedit
      rcases Node.mem_producers_bind hp with hp | hp
      · exact hg n (List.mem_of_getElem? hn) p hp
      · exact hproducer socket p (hbinding p hp) hchecked
  · exact hg m hm p hp

/-- Where the root and all producers are nodes, no unknown node is reported. -/
lemma evaluate_ne_unknownNode {g : Graph} (hrooted : g.Rooted) (hclosed : g.Closed) (id : NodeId) :
    g.evaluate ≠ .error (.unknownNode id) := by
  intro h
  obtain ⟨hout, hroot | ⟨consumer, _, hreads⟩⟩ := trueOf_of_evaluate h
  · exact Nat.not_lt.mpr hout (hrooted id hroot)
  · obtain ⟨n, hn, hp⟩ := reads_iff.mp hreads
    exact Nat.not_lt.mpr hout (hclosed n (List.mem_of_getElem? hn) id hp)

/-- After any history in place, in which operations may fail, every node has the sockets that its
kind declares, in order and with literals of their types, and only a socket without a default is
without a value; the root is a node; and whatever is done later, no node goes away or changes its
name or kind.  If no connection was made without looking at its producer, all producers are nodes
and no unknown node is reported. -/
theorem edited_wellFormed (edits : List Edit) (hplace : ∀ e ∈ edits, e.inPlace) :
    (∀ n ∈ (empty.edited edits).nodes, n.Conforms) ∧
      (empty.edited edits).Rooted ∧
      (∀ later : List Edit, (∀ e ∈ later, e.inPlace) →
        (empty.edited edits).Extends ((empty.edited edits).edited later)) ∧
      ((∀ e ∈ empty.performed edits, e.checked) →
        (empty.edited edits).Closed ∧
          ∀ id, (empty.edited edits).evaluate ≠ .error (.unknownNode id)) := by
  have hrooted : (empty.edited edits).Rooted := by
    refine edited_of_performed (by simp [Rooted, empty]) fun e he g g' hg happly => ?_
    exact hg.apply (hplace e (mem_of_mem_performed he)) happly
  refine ⟨Built.conforms ⟨edits, rfl⟩, hrooted, fun later => extends_edited, fun hchecked => ?_⟩
  have hclosed : (empty.edited edits).Closed := by
    refine edited_of_performed (by simp [Closed, empty]) fun e he g g' hg happly => ?_
    exact hg.apply (hplace e (mem_of_mem_performed he)) (hchecked e he) happly
  exact ⟨hclosed, evaluate_ne_unknownNode hrooted hclosed⟩

/-- A history with operations that fail: there is no node for a producer, a consumer or a root, no
socket of a name, and a value has another type than its socket.  A node reads itself. -/
def rough : List Edit :=
  [.add "mix" (.mix .mix) [], .connect 0 "Fac" 1, .add "math" (.math .add) [],
    .connect 0 "Fac" 1, .setValue 0 "Color1" ⟨.float, "1.0"⟩, .attach 9 "Fac" 7,
    .attach 1 "Height" 7, .setRoot 5, .setRoot 0, .setValue 1 "Value2" ⟨.float, "2.0"⟩,
    .connect 1 "Value1" 1, .add "output" .materialOutput [], .connect 2 "Surface" 0,
    .disconnect 2 "Surface"]

/-- The rough history leaves the graph as it should be: the cycle is reported and no unknown
node. -/
theorem edited_wellFormed_rough :
    (empty.edited rough).nodes.length = 3 ∧ (empty.edited rough).root = some 0 ∧
      (∀ n ∈ (empty.edited rough).nodes, n.Conforms) ∧ (empty.edited rough).Rooted ∧
      (empty.edited rough).Closed ∧ (empty.edited rough).evaluate = .error (.cycle "math") ∧
      ∀ id, (empty.edited rough).evaluate ≠ .error (.unknownNode id) := by
  obtain ⟨hconforms, hrooted, _, hchecked⟩ := edited_wellFormed rough (by decide)
  obtain ⟨hclosed, hknown⟩ := hchecked (by decide)
  exact ⟨by decide, by decide, hconforms, hrooted, hclosed, by cbv, hknown⟩

end Graph

end MaterialGraph
