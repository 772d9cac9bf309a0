import Mathlib
import MaterialGraph.Proofs.Graph.Invariant
import MaterialGraph.Proofs.Result

/-!
# Operations as checks and a write

Binding a socket and pointing out the root are checks followed by one write (`Graph.Write`).  The
checks look at the shape of the graph, that is at the names, kinds and sockets of its nodes, and not
at what is bound to the sockets (`Edit.outcome_of_shape`).  A write leaves the shape alone, so the
checks of one operation do not depend on whether another one has been performed.

Two writes to different places can be done in either order (`Write.run_comm`), and of two writes to
the same place the later one counts (`Write.run_of_place_eq`).  The same then holds for operations:
`Edit.bind_of_bind`, `Edit.apply_edited_of_place`.
-/

namespace MaterialGraph

namespace Graph

/-! ### Places and writes -/

/-- What an operation can write to: a socket of a node, or the root. -/
inductive Place where
  | socket (id : NodeId) (name : String)
  | root
  deriving DecidableEq

/-- A write to one place. -/
inductive Write where
  | edit (id : NodeId) (edit : Node.Edit)
  | root (id : NodeId)
  deriving DecidableEq

end Graph

/-- The socket that an edit of a node is about. -/
def Node.Edit.socket : Node.Edit → String
  | setValue socket _ => socket
  | connect socket _ => socket
  | disconnect socket => socket

/-- What an edit puts on its socket, in a node of the given kind. -/
def Node.Edit.content (kind : Kind) : Node.Edit → Option Binding
  | setValue _ value => some (.literal value)
  | connect _ producer => some (.connection producer)
  | disconnect socket =>
    ((kind.sockets.find? fun s => s.name == socket).bind SocketSpec.default).map .literal

namespace Graph

/-- The place that is written to. -/
def Write.place : Write → Place
  | edit id e => .socket id e.socket
  | root _ => .root

/-- The graph after a write. -/
def Write.run (g : Graph) : Write → Graph
  | edit id e => { g with nodes := g.nodes.modify id fun n => n.bind e.socket (e.content n.kind) }
  | root id => { g with root := some id }

/-- The write of an operation that binds a socket or points out the root. -/
def Edit.write? : Edit → Option Write
  | add _ _ _ => none
  | replace _ _ _ _ => none
  | setValue id socket value => some (.edit id (.setValue socket value))
  | connect consumer socket producer => some (.edit consumer (.connect socket producer))
  | attach consumer socket producer => some (.edit consumer (.connect socket producer))
  | disconnect id socket => some (.edit id (.disconnect socket))
  | setRoot id => some (.root id)

/-- The place that an operation writes to, if it binds a socket or points out the root. -/
def Edit.place (e : Edit) : Option Place :=
  e.write?.map Write.place

end Graph

/-! ### Sockets that are written to twice -/

namespace Socket

variable {a b : String} {x y : Option Binding}

/-- Of two bindings of one socket the later one counts. -/
lemma rebind_rebind (sockets : List Socket) :
    rebind a x (rebind a y sockets) = rebind a x sockets := by
  induction sockets with
  | nil => rfl
  | cons s sockets ih =>
    by_cases hs : s.name = a
    · simp [rebind, hs]
    · simp [rebind, hs, ih]

/-- Two sockets can be bound in either order. -/
lemma rebind_comm (h : a ≠ b) (sockets : List Socket) :
    rebind a x (rebind b y sockets) = rebind b y (rebind a x sockets) := by
  induction sockets with
  | nil => rfl
  | cons s sockets ih =>
    by_cases ha : s.name = a
    · simp [rebind, ha, h]
    · by_cases hb : s.name = b
      · simp [rebind, hb, h.symm]
      · simp [rebind, ha, hb, ih]

/-- Binding a socket does not change the names and types of sockets. -/
lemma map_rebind (sockets : List Socket) :
    ((rebind a x sockets).map fun s => (s.name, s.type)) =
      sockets.map fun s => (s.name, s.type) := by
  induction sockets with
  | nil => rfl
  | cons s sockets ih =>
    by_cases hs : s.name = a
    · simp [rebind, hs]
    · simp [rebind, hs, ih]

/-- Binding by name leaves the sockets in front of the first one with that name and those after it
alone. -/
lemma rebind_append {before after : List Socket} {s : Socket} (hs : s.name = a)
    (hbefore : ∀ t ∈ before, t.name ≠ a) :
    rebind a x (before ++ s :: after) = before ++ { s with binding := x } :: after := by
  induction before with
  | nil => simp [rebind, hs]
  | cons t before ih =>
    rw [List.forall_mem_cons] at hbefore
    simp [rebind, hbefore.1, ih hbefore.2]

end Socket

/-! ### Checks look at the shape -/

/-- What of a node no binding changes: its name, its kind, and the names and types of its
sockets. -/
def Node.shape (n : Node) : String × Kind × List (String × ValueType) :=
  (n.name, n.kind, n.sockets.map fun s => (s.name, s.type))

/-- The shapes of the nodes of a graph. -/
def Graph.shape (g : Graph) : List (String × Kind × List (String × ValueType)) :=
  g.nodes.map Node.shape

namespace Node

/-- Binding a socket leaves the shape of a node alone. -/
lemma shape_bind (n : Node) (socket : String) (binding : Option Binding) :
    (n.bind socket binding).shape = n.shape := by
  unfold shape bind
  rw [Socket.map_rebind]

/-- An edit that succeeds finds its socket and puts its content on it. -/
lemma Edit.exists_socket_of_apply {e : Edit} {n n' : Node} (h : e.apply n = .ok n') :
    ∃ s, n.socket? e.socket = some s ∧ n' = n.bind e.socket (e.content n.kind) := by
  cases e with
  | setValue socket value =>
    obtain ⟨s, hs, _, hn'⟩ := setValue_eq_ok_iff.mp h
    exact ⟨s, hs, hn'⟩
  | connect socket producer => exact connect_eq_ok_iff.mp h
  | disconnect socket => exact disconnect_eq_ok_iff.mp h

/-- Nodes of one shape have sockets of one type under a name. -/
lemma map_type_socket?_of_shape {n m : Node} (h : n.shape = m.shape) (socket : String) :
    (n.socket? socket).map Socket.type = (m.socket? socket).map Socket.type := by
  have hfind : ∀ k : Node, (k.socket? socket).map Socket.type =
      ((k.shape.2.2.find? fun p => p.1 == socket).map Prod.snd) := by
    intro k
    simp [socket?, shape, List.find?_map, Function.comp_def]
  rw [hfind, hfind, h]

/-- What an edit checks, given the name of the node and the type of the socket that is found. -/
def Edit.check (name : String) : Edit → Option ValueType → Except GraphError Unit
  | e, none => .error (.unknownSocket name e.socket)
  | .setValue socket value, some type =>
    if type = value.type then .ok () else .error (.typeMismatch name socket type value.type)
  | _, some _ => .ok ()

/-- An edit succeeds or fails as its check does. -/
lemma Edit.outcome_eq_check (e : Edit) (n : Node) :
    (e.apply n).map (fun _ => ()) =
      e.check n.name ((n.socket? e.socket).map Socket.type) := by
  cases e with
  | setValue socket value =>
    unfold Edit.apply Node.setValue
    cases hs : n.socket? socket with
    | none => simp [Edit.socket, Edit.check, hs, Except.map]
    | some s =>
      by_cases htype : s.type = value.type
      · simp [Edit.socket, Edit.check, hs, htype, Except.map]
      · simp [Edit.socket, Edit.check, hs, htype, Except.map]
  | connect socket producer =>
    unfold Edit.apply Node.connect
    cases hs : n.socket? socket <;> simp [Edit.socket, Edit.check, hs, Except.map]
  | disconnect socket =>
    unfold Edit.apply Node.disconnect
    cases hs : n.socket? socket <;> simp [Edit.socket, Edit.check, hs, Except.map]

/-- Whether an edit succeeds, and why not, depends on the shape of the node. -/
lemma Edit.outcome_of_shape {n m : Node} (h : n.shape = m.shape) (e : Edit) :
    (e.apply n).map (fun _ => ()) = (e.apply m).map fun _ => () := by
  have hname : n.name = m.name := congrArg Prod.fst h
  rw [e.outcome_eq_check, e.outcome_eq_check, hname, map_type_socket?_of_shape h]

end Node

namespace Graph

variable {g h g' : Graph} {e e' : Edit} {w w' : Write}

/-- Changing a node is looking it up, changing it and putting it back. -/
lemma update_eq_bind (g : Graph) (id : NodeId) (change : Node → Except GraphError Node) :
    g.update id change =
      g.node id >>= fun n => change n >>= fun n' => .ok { g with nodes := g.nodes.set id n' } := by
  unfold update
  cases g.node id with
  | error _ => rfl
  | ok n => cases hn : change n <;> simp [hn, bind, Except.bind]

/-- Connecting is looking the producer up and then connecting without looking. -/
lemma connect_eq_bind (g : Graph) (consumer : NodeId) (socket : String) (producer : NodeId) :
    g.connect consumer socket producer =
      g.node producer >>= fun _ => g.attach consumer socket producer := by
  unfold Graph.connect
  cases g.node producer <;> rfl

/-- Pointing out the root is looking it up and then writing it. -/
lemma setRoot_eq_bind (g : Graph) (id : NodeId) :
    g.setRoot id = g.node id >>= fun _ => .ok { g with root := some id } := by
  unfold setRoot
  cases g.node id <;> rfl

/-- In graphs of one shape, an id leads to nodes of one shape or to nothing. -/
lemma bind_node_of_shape (hshape : g.shape = h.shape) (id : NodeId)
    {x y : Node → Except GraphError Unit} (hxy : ∀ n m, n.shape = m.shape → x n = y m) :
    (g.node id >>= x) = (h.node id >>= y) := by
  have hnode : g.nodes[id]?.map Node.shape = h.nodes[id]?.map Node.shape := by
    rw [← List.getElem?_map, ← List.getElem?_map]
    exact congrArg (·[id]?) hshape
  unfold node
  cases hg : g.nodes[id]? with
  | none =>
    have hh : h.nodes[id]? = none := by simpa [hg] using hnode.symm
    rw [hh]
    rfl
  | some n =>
    obtain ⟨m, hh, hm⟩ : ∃ m, h.nodes[id]? = some m ∧ m.shape = n.shape := by
      simpa [hg] using hnode.symm
    rw [hh]
    exact hxy n m hm.symm

/-- Whether a node of a graph can be edited, and why not, depends on the shape of the graph. -/
lemma outcome_update_of_shape (hshape : g.shape = h.shape) (id : NodeId) (edit : Node.Edit) :
    (g.update id edit.apply).map (fun _ => ()) = (h.update id edit.apply).map fun _ => () := by
  rw [update_eq_bind, update_eq_bind, map_bind, map_bind]
  refine bind_node_of_shape hshape id fun n m hnode => ?_
  rw [map_bind, map_bind]
  have houtcome := edit.outcome_of_shape hnode
  cases hn : edit.apply n <;> cases hm : edit.apply m <;> simp_all [Except.map, bind, Except.bind]

/-- Whether an operation that binds a socket or points out the root succeeds, and why not, depends
on the shape of the graph. -/
lemma Edit.outcome_of_shape (hw : e.write? = some w) (hshape : g.shape = h.shape) :
    (e.apply g).map (fun _ => ()) = (e.apply h).map fun _ => () := by
  cases e with
  | add name kind edits => cases hw
  | replace id name kind edits => cases hw
  | setValue id socket value => exact outcome_update_of_shape hshape id (.setValue socket value)
  | attach consumer socket producer =>
    exact outcome_update_of_shape hshape consumer (.connect socket producer)
  | disconnect id socket => exact outcome_update_of_shape hshape id (.disconnect socket)
  | connect consumer socket producer =>
    simp only [Edit.apply, connect_eq_bind, map_bind]
    exact bind_node_of_shape hshape producer fun _ _ _ =>
      outcome_update_of_shape hshape consumer (.connect socket producer)
  | setRoot id =>
    simp only [Edit.apply, setRoot_eq_bind, map_bind]
    exact bind_node_of_shape hshape id fun _ _ _ => rfl

/-! ### What a write does -/

/-- A write leaves the shape of a graph alone. -/
lemma Write.shape_run (w : Write) (g : Graph) : (w.run g).shape = g.shape := by
  cases w with
  | root id => rfl
  | edit id edit =>
    refine List.ext_getElem? fun other => ?_
    simp only [shape, Write.run, List.getElem?_map, List.getElem?_modify]
    cases g.nodes[other]? with
    | none => rfl
    | some n =>
      by_cases hother : id = other
      · simp [hother, Node.shape_bind]
      · simp [hother]

/-- Of two writes to one place the later one counts. -/
lemma Write.run_of_place_eq (hplace : w.place = w'.place) (g : Graph) :
    w.run (w'.run g) = w.run g := by
  cases w with
  | root id =>
    cases w' with
    | root id' => rfl
    | edit id' edit' => cases hplace
  | edit id edit =>
    cases w' with
    | root id' => cases hplace
    | edit id' edit' =>
      obtain ⟨rfl, hsocket⟩ : id = id' ∧ edit.socket = edit'.socket := by
        simpa [Write.place] using hplace
      simp only [Write.run, List.modify_modify_eq, Function.comp_def, Node.bind, hsocket,
        Socket.rebind_rebind]

/-- Two writes to different places can be done in either order. -/
lemma Write.run_comm (hplace : w.place ≠ w'.place) (g : Graph) :
    w.run (w'.run g) = w'.run (w.run g) := by
  cases w with
  | root id =>
    cases w' with
    | root id' => exact absurd rfl hplace
    | edit id' edit' => rfl
  | edit id edit =>
    cases w' with
    | root id' => rfl
    | edit id' edit' =>
      by_cases hid : id = id'
      · subst hid
        have hsocket : edit.socket ≠ edit'.socket := by simpa [Write.place] using hplace
        simp only [Write.run, List.modify_modify_eq, Function.comp_def, Node.bind,
          Socket.rebind_comm hsocket]
      · simp only [Write.run, List.modify_modify_ne _ _ _ (Ne.symm hid)]

/-- An update that succeeds does what its edit writes. -/
lemma eq_run_of_update {id : NodeId} {edit : Node.Edit}
    (happly : g.update id edit.apply = .ok g') : g' = (Write.edit id edit).run g := by
  obtain ⟨n, n', hn, hedit, rfl⟩ := exists_set_of_update happly
  obtain ⟨_, _, rfl⟩ := edit.exists_socket_of_apply hedit
  rw [Write.run, List.modify_eq_set_getElem?, hn]
  rfl

/-- An operation that succeeds does what it writes. -/
lemma Edit.eq_run_of_apply (hw : e.write? = some w) (happly : e.apply g = .ok g') :
    g' = w.run g := by
  cases e with
  | add name kind edits => cases hw
  | replace id name kind edits => cases hw
  | setValue id socket value =>
    obtain rfl := Option.some.inj hw
    exact eq_run_of_update happly
  | attach consumer socket producer =>
    obtain rfl := Option.some.inj hw
    exact eq_run_of_update happly
  | disconnect id socket =>
    obtain rfl := Option.some.inj hw
    exact eq_run_of_update happly
  | connect consumer socket producer =>
    obtain rfl := Option.some.inj hw
    obtain ⟨_, _, hattach⟩ := bind_eq_ok_iff.mp ((connect_eq_bind ..).symm.trans happly)
    exact eq_run_of_update hattach
  | setRoot id =>
    obtain rfl := Option.some.inj hw
    obtain ⟨_, _, hroot⟩ := bind_eq_ok_iff.mp ((setRoot_eq_bind ..).symm.trans happly)
    exact (Except.ok.inj hroot).symm

/-- Where an operation succeeds, it does so on every graph of the same shape. -/
lemma Edit.apply_of_shape (hw : e.write? = some w) (hshape : g.shape = h.shape)
    (happly : e.apply g = .ok g') : e.apply h = .ok (w.run h) := by
  have houtcome := e.outcome_of_shape hw hshape
  rw [happly] at houtcome
  obtain ⟨h', hh', _⟩ := map_eq_ok_iff.mp houtcome.symm
  rw [hh', e.eq_run_of_apply hw hh']

/-! ### Two operations, and many at one place -/

/-- Operations at different places that succeed one after the other do so in the other order, with
the same result. -/
lemma Edit.bind_of_bind (hw : e.write? = some w) (hw' : e'.write? = some w')
    (hplace : w.place ≠ w'.place) (hboth : (e.apply g >>= e'.apply) = .ok h) :
    (e'.apply g >>= e.apply) = .ok h := by
  obtain ⟨g₁, hfirst, hsecond⟩ := bind_eq_ok_iff.mp hboth
  obtain rfl := e.eq_run_of_apply hw hfirst
  obtain rfl := e'.eq_run_of_apply hw' hsecond
  have hsecond' : e'.apply g = .ok (w'.run g) := e'.apply_of_shape hw' (w.shape_run g) hsecond
  have hfirst' := e.apply_of_shape hw (w'.shape_run g).symm hfirst
  exact bind_eq_ok_iff.mpr ⟨_, hsecond', by rw [hfirst', Write.run_comm hplace]⟩

/-- An operation does not see what was written to its place before. -/
lemma Edit.apply_run_of_place_eq (hw : e.write? = some w) (hplace : w.place = w'.place) :
    e.apply (w'.run g) = e.apply g := by
  cases happly : e.apply g with
  | ok g' =>
    rw [e.apply_of_shape hw (w'.shape_run g).symm happly, Write.run_of_place_eq hplace,
      e.eq_run_of_apply hw happly]
  | error err =>
    have houtcome := e.outcome_of_shape hw (w'.shape_run g)
    rw [happly] at houtcome
    exact map_eq_error_iff.mp houtcome

/-- An operation does not see a history of operations at its place. -/
lemma Edit.apply_edited_of_place (hw : e.write? = some w) {edits : List Edit}
    (hplace : ∀ e' ∈ edits, e'.place = some w.place) : e.apply (g.edited edits) = e.apply g := by
  induction edits generalizing g with
  | nil => rfl
  | cons first edits ih =>
    rw [List.forall_mem_cons] at hplace
    unfold edited
    cases hfirst : first.apply g with
    | error _ => exact ih hplace.2
    | ok g' =>
      obtain ⟨w', hw', hsame⟩ := Option.map_eq_some_iff.mp hplace.1
      obtain rfl := first.eq_run_of_apply hw' hfirst
      exact (ih hplace.2).trans (e.apply_run_of_place_eq hw hsame.symm)

end Graph

end MaterialGraph
