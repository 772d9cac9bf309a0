import Mathlib
import MaterialGraph.Proofs.Graph.Writes

/-!
# Operations are atomic and local

Written as a procedure that changes a graph in place and may stop anywhere (`Graph.Edit.perform`),
an operation stops with an error only before it has written anything (`Edit.run_perform`).  When it
succeeds, it has changed what is bound to one socket of one node, or the root (`Edit.Effect`).  For
a socket that is given back its default that is what the socket holds in a new node, whatever has
happened in between (`exists_disconnect_edited`).
-/

namespace MaterialGraph

/-! ### Procedures in place -/

/-- A procedure that changes a graph in place.  When it stops with an error, whatever it has written
by then stays written. -/
abbrev InPlace (α : Type) := EStateM GraphError Graph α

namespace InPlace

/-- Look a node up. -/
def node (id : NodeId) : InPlace Node := do
  match (← get).node id with
  | .ok n => return n
  | .error e => throw e

/-- Look a socket of a node up. -/
def slot (n : Node) (socket : String) : InPlace Socket :=
  match n.socket? socket with
  | some s => return s
  | none => throw (.unknownSocket n.name socket)

/-- Write to a socket of a node. -/
def write (id : NodeId) (socket : String) (binding : Option Binding) : InPlace Unit :=
  modify fun g => { g with nodes := g.nodes.modify id fun n => n.bind socket binding }

end InPlace

namespace Graph

/-- An operation as a procedure: it looks up what it needs, one after the other, and writes. -/
def Edit.perform : Edit → InPlace Unit
  | add name kind edits => modify fun g => g.add ((Node.new name kind).edited edits)
  | replace id name kind edits => do
    let _ ← InPlace.node id
    modify fun g => { g with nodes := g.nodes.set id ((Node.new name kind).edited edits) }
  | setValue id socket value => do
    let n ← InPlace.node id
    let s ← InPlace.slot n socket
    if s.type = value.type then InPlace.write id socket (some (.literal value))
    else throw (.typeMismatch n.name socket s.type value.type)
  | connect consumer socket producer => do
    let _ ← InPlace.node producer
    let n ← InPlace.node consumer
    let _ ← InPlace.slot n socket
    InPlace.write consumer socket (some (.connection producer))
  | attach consumer socket producer => do
    let n ← InPlace.node consumer
    let _ ← InPlace.slot n socket
    InPlace.write consumer socket (some (.connection producer))
  | disconnect id socket => do
    let n ← InPlace.node id
    let _ ← InPlace.slot n socket
    let spec := n.kind.sockets.find? fun s => s.name == socket
    InPlace.write id socket ((spec.bind SocketSpec.default).map .literal)
  | setRoot id => do
    let _ ← InPlace.node id
    modify fun g => { g with root := some id }

/-! ### Effects -/

/-- Two graphs differ in what is bound to one socket of one node, if at all: the node has just one
socket of that name, and it has the given binding in the second graph. -/
structure Rebinds (g g' : Graph) (id : NodeId) (socket : String) (binding : Option Binding) :
    Prop where
  root : g'.root = g.root
  length : g'.nodes.length = g.nodes.length
  others : ∀ other, other ≠ id → g'.nodes[other]? = g.nodes[other]?
  node : ∃ (n n' : Node) (before : List Socket) (s : Socket) (after : List Socket),
    g.nodes[id]? = some n ∧ g'.nodes[id]? = some n' ∧ n'.name = n.name ∧ n'.kind = n.kind ∧
      n.sockets = before ++ s :: after ∧
      n'.sockets = before ++ { s with binding := binding } :: after ∧
      s.name = socket ∧ ∀ t ∈ before ++ after, t.name ≠ socket

/-- What an operation that binds a socket or points out the root does when it succeeds. -/
inductive Edit.Effect (g : Graph) : Edit → Graph → Prop where
  | setValue {id : NodeId} {socket : String} {value : Literal} {g' : Graph}
      (h : g.Rebinds g' id socket (some (.literal value))) : Effect g (.setValue id socket value) g'
  | connect {consumer producer : NodeId} {socket : String} {g' : Graph}
      (h : g.Rebinds g' consumer socket (some (.connection producer))) :
      Effect g (.connect consumer socket producer) g'
  | attach {consumer producer : NodeId} {socket : String} {g' : Graph}
      (h : g.Rebinds g' consumer socket (some (.connection producer))) :
      Effect g (.attach consumer socket producer) g'
  | disconnect {id : NodeId} {socket : String} {n : Node} {fresh : Socket} {g' : Graph}
      (hn : g.nodes[id]? = some n)
      (hfresh : (Node.new n.name n.kind).socket? socket = some fresh)
      (h : g.Rebinds g' id socket fresh.binding) : Effect g (.disconnect id socket) g'
  | setRoot {id : NodeId} : Effect g (.setRoot id) { g with root := some id }

end Graph

/-! ### Sockets as they are made -/

/-- The sockets of a new node are found by their declarations. -/
lemma Node.socket?_new (name : String) (kind : Kind) (socket : String) :
    (Node.new name kind).socket? socket =
      (kind.sockets.find? fun spec => spec.name == socket).map Socket.ofSpec := by
  simp [Node.new, Node.socket?, List.find?_map, Function.comp_def, Socket.ofSpec]

/-- A socket has the name and type that it has in a new node of the kind, and giving it its default
puts on it what it holds there. -/
lemma Node.Conforms.exists_fresh {n : Node} (hn : n.Conforms) {socket : String} {s : Socket}
    (hs : n.socket? socket = some s) :
    ∃ fresh, (Node.new n.name n.kind).socket? socket = some fresh ∧
      { s with binding := (Node.Edit.disconnect socket).content n.kind } = fresh := by
  obtain ⟨spec, hspec, hconforms⟩ := Socket.find?_conforms hn hs
  refine ⟨Socket.ofSpec spec, by rw [Node.socket?_new, hspec]; rfl, ?_⟩
  simp [Node.Edit.content, hspec, Socket.ofSpec, hconforms.name, hconforms.type]

namespace Graph

variable {g g' : Graph} {id : NodeId} {n : Node}

/-- A write to a socket that the node has changes what is bound to that socket. -/
lemma Write.rebinds_run {edit : Node.Edit} {s : Socket} (hn : g.nodes[id]? = some n)
    (hconforms : n.Conforms) (hs : n.socket? edit.socket = some s) :
    g.Rebinds ((Write.edit id edit).run g) id edit.socket (edit.content n.kind) := by
  have hname : s.name = edit.socket := by simpa using List.find?_some hs
  obtain ⟨_, before, after, hsplit, hbefore⟩ := List.find?_eq_some_iff_append.mp hs
  have hbefore : ∀ t ∈ before, t.name ≠ edit.socket := by simpa using hbefore
  have hafter : ∀ t ∈ after, t.name ≠ edit.socket := by
    intro t ht hsame
    have hnames := hconforms.nodup_names
    rw [hsplit, List.map_append, List.map_cons, List.nodup_append, List.nodup_cons] at hnames
    exact hnames.2.1.1 (List.mem_map.mpr ⟨t, ht, hsame.trans hname.symm⟩)
  refine ⟨rfl, List.length_modify _ _ _, ?_, n, n.bind edit.socket (edit.content n.kind), before, s,
    after, hn, ?_, rfl, rfl, hsplit, ?_, hname, ?_⟩
  · intro other hother
    simp [Write.run, Ne.symm hother]
  · simp [Write.run, hn]
  · simp only [Node.bind, hsplit, Socket.rebind_append hname hbefore]
  · exact List.forall_mem_append.mpr ⟨hbefore, hafter⟩

/-- An edit of a node that succeeds changes what is bound to its socket. -/
lemma rebinds_of_update (edit : Node.Edit) (hconforms : ∀ n ∈ g.nodes, n.Conforms)
    (h : g.update id edit.apply = .ok g') :
    ∃ n s, g.nodes[id]? = some n ∧ n.socket? edit.socket = some s ∧
      g.Rebinds g' id edit.socket (edit.content n.kind) := by
  obtain rfl := eq_run_of_update h
  obtain ⟨n, n', hn, hedit, -⟩ := exists_set_of_update h
  obtain ⟨s, hs, -⟩ := edit.exists_socket_of_apply hedit
  exact ⟨n, s, hn, hs, Write.rebinds_run hn (hconforms n (List.mem_of_getElem? hn)) hs⟩

/-- An operation that binds a socket or points out the root has its effect when it succeeds. -/
lemma Edit.effect_of_apply {e : Edit} (hconforms : ∀ n ∈ g.nodes, n.Conforms)
    (hplace : e.place ≠ none) (happly : e.apply g = .ok g') : e.Effect g g' := by
  cases e with
  | add name kind edits => exact absurd rfl hplace
  | replace id name kind edits => exact absurd rfl hplace
  | setValue id socket value =>
    obtain ⟨_, _, _, _, hrebinds⟩ :=
      rebinds_of_update (.setValue socket value) hconforms happly
    exact .setValue hrebinds
  | attach consumer socket producer =>
    obtain ⟨_, _, _, _, hrebinds⟩ :=
      rebinds_of_update (.connect socket producer) hconforms happly
    exact .attach hrebinds
  | connect consumer socket producer =>
    obtain ⟨_, _, hattach⟩ := bind_eq_ok_iff.mp ((connect_eq_bind ..).symm.trans happly)
    obtain ⟨_, _, _, _, hrebinds⟩ :=
      rebinds_of_update (.connect socket producer) hconforms hattach
    exact .connect hrebinds
  | disconnect id socket =>
    obtain ⟨n, s, hn, hs, hrebinds⟩ :=
      rebinds_of_update (.disconnect socket) hconforms happly
    obtain ⟨fresh, hfresh, rfl⟩ := (hconforms n (List.mem_of_getElem? hn)).exists_fresh hs
    exact .disconnect hn hfresh hrebinds
  | setRoot id =>
    obtain rfl := Edit.eq_run_of_apply rfl happly
    exact .setRoot

/-! ### Procedures that stop -/

/-- Looking a node up in place gives what looking it up gives, and writes nothing. -/
lemma run_node (id : NodeId) (g : Graph) :
    (InPlace.node id).run g =
      match g.node id with
      | .ok n => .ok n g
      | .error err => .error err g := by
  simp only [InPlace.node, EStateM.run_bind, EStateM.run_get]
  cases g.node id <;> rfl

/-- Looking a socket up in place gives the socket, and writes nothing. -/
lemma run_slot (n : Node) (socket : String) (g : Graph) :
    (InPlace.slot n socket).run g =
      match n.socket? socket with
      | some s => .ok s g
      | none => .error (.unknownSocket n.name socket) g := by
  unfold InPlace.slot
  cases n.socket? socket <;> rfl

/-- Writing to a socket in place puts the node with the new binding back. -/
lemma run_write {id : NodeId} {n : Node} (hn : g.node id = .ok n) (socket : String)
    (binding : Option Binding) :
    (InPlace.write id socket binding).run g =
      .ok () { g with nodes := g.nodes.set id (n.bind socket binding) } := by
  simp [InPlace.write, List.modify_eq_set_getElem?, node_eq_ok_iff.mp hn]

/-- Connecting in place without looking comes to the graph that connecting gives. -/
lemma run_attach (consumer : NodeId) (socket : String) (producer : NodeId) (g : Graph) :
    (Edit.attach consumer socket producer).perform.run g =
      match g.attach consumer socket producer with
      | .ok g' => .ok () g'
      | .error err => .error err g := by
  simp only [Edit.perform, EStateM.run_bind, run_node, run_slot, Graph.attach, update,
    Node.connect]
  cases hn : g.node consumer with
  | error _ => rfl
  | ok n =>
    cases hs : n.socket? socket with
    | none => simp [hs]
    | some s => simp [hs, run_write hn]

/-- An operation in place comes to the graph that the operation gives; when it fails, nothing has
been written. -/
lemma Edit.run_perform (e : Edit) (g : Graph) :
    e.perform.run g =
      match e.apply g with
      | .ok g' => .ok () g'
      | .error err => .error err g := by
  cases e with
  | add name kind edits => rfl
  | replace id name kind edits =>
    simp only [Edit.perform, Edit.apply, EStateM.run_bind, run_node, update]
    cases g.node id <;> rfl
  | setValue id socket value =>
    simp only [Edit.perform, Edit.apply, EStateM.run_bind, run_node, run_slot, Graph.setValue,
      update, Node.setValue]
    cases hn : g.node id with
    | error _ => rfl
    | ok n =>
      cases hs : n.socket? socket with
      | none => simp [hs]
      | some s =>
        by_cases htype : s.type = value.type
        · simp [hs, htype, run_write hn]
        · simp [hs, htype]
  | connect consumer socket producer =>
    have hperform : (Edit.connect consumer socket producer).perform = InPlace.node producer >>=
        fun _ => (Edit.attach consumer socket producer).perform := rfl
    rw [hperform, EStateM.run_bind, run_node]
    simp only [Edit.apply, Graph.connect]
    cases g.node producer with
    | error _ => rfl
    | ok _ => exact run_attach consumer socket producer g
  | attach consumer socket producer => exact run_attach consumer socket producer g
  | disconnect id socket =>
    simp only [Edit.perform, Edit.apply, EStateM.run_bind, run_node, run_slot, Graph.disconnect,
      update, Node.disconnect]
    cases hn : g.node id with
    | error _ => rfl
    | ok n =>
      cases hs : n.socket? socket with
      | none => simp [hs]
      | some s => simp [hs, run_write hn]
  | setRoot id =>
    simp only [Edit.perform, Edit.apply, EStateM.run_bind, run_node, Graph.setRoot]
    cases g.node id <;> rfl

/-! ### Histories -/

/-- A history can be taken up again. -/
lemma edited_append (g : Graph) (edits later : List Edit) :
    g.edited (edits ++ later) = (g.edited edits).edited later := by
  induction edits generalizing g with
  | nil => rfl
  | cons e edits ih =>
    rw [List.cons_append, edited, edited]
    cases e.apply g with
    | ok g' => exact ih g'
    | error _ => exact ih g

/-- What is made of a graph that can be built can be built. -/
lemma Built.edited (hg : g.Built) (edits : List Edit) : (g.edited edits).Built := by
  obtain ⟨earlier, rfl⟩ := hg
  exact ⟨earlier ++ edits, edited_append empty earlier edits⟩

/-- A socket that is bound anew is found with its new binding. -/
lemma Rebinds.socket? {socket : String} {binding : Option Binding}
    (h : g.Rebinds g' id socket binding) {s : Socket} (hn : g.nodes[id]? = some n)
    (hs : n.socket? socket = some s) :
    ∃ n', g'.nodes[id]? = some n' ∧ n'.socket? socket = some { s with binding := binding } := by
  obtain ⟨m, n', before, t, after, hm, hn', -, -, hsplit, hsplit', hname, hothers⟩ := h.node
  obtain rfl : m = n := Option.some.inj (hm.symm.trans hn)
  have hbefore : ∀ u ∈ before, ¬ (u.name == socket) = true := by
    intro u hu
    simpa using hothers u (List.mem_append_left _ hu)
  have hskip : ∀ rest, (before ++ rest).find? (fun u => u.name == socket) =
      rest.find? fun u => u.name == socket := by
    intro rest
    rw [List.find?_append, List.find?_eq_none.mpr hbefore, Option.none_or]
  obtain rfl : t = s := by
    rw [Node.socket?, hsplit, hskip, List.find?_cons_of_pos (by simpa using hname)] at hs
    exact Option.some.inj hs
  refine ⟨n', hn', ?_⟩
  rw [Node.socket?, hsplit', hskip, List.find?_cons_of_pos (by simpa using hname)]

/-- Whatever has happened to a graph since a node was made, giving one of its sockets back its
default succeeds and leaves the socket as it was made. -/
lemma exists_disconnect_edited (hg : g.Built) {name : String} {kind : Kind} {edits : List Edit}
    (hplace : ∀ e ∈ edits, e.inPlace) {socket : String} {fresh : Socket}
    (hfresh : (Node.new name kind).socket? socket = some fresh) :
    ∃ g' n, ((g.add (Node.new name kind)).edited edits).disconnect g.nodes.length socket = .ok g' ∧
      g'.nodes[g.nodes.length]? = some n ∧ n.socket? socket = some fresh := by
  have hadd : (g.add (Node.new name kind)).nodes[g.nodes.length]? = some (Node.new name kind) := by
    simp [Graph.add]
  have hbuilt : ((g.add (Node.new name kind)).edited edits).Built :=
    (hg.edited [.add name kind []]).edited edits
  obtain ⟨n, hn, hname, hkind⟩ := (extends_edited hplace).kept _ _ hadd
  have hconforms := hbuilt.conforms n (List.mem_of_getElem? hn)
  -- the kind of the node still declares the socket, so the node has it
  obtain ⟨s, hs⟩ : ∃ s, n.socket? socket = some s := by
    rw [Node.socket?_new] at hfresh
    obtain ⟨spec, hspec, -⟩ := Option.map_eq_some_iff.mp hfresh
    have hmem : spec ∈ n.kind.sockets := by
      rw [hkind]
      exact List.mem_of_find?_eq_some hspec
    have hsocket : spec.name = socket := by simpa using List.find?_some hspec
    obtain ⟨s, hs, -⟩ := hconforms.exists_socket hmem
    exact ⟨s, by rw [← hsocket]; exact hs⟩
  obtain ⟨g', hdisconnect⟩ : ∃ g', ((g.add (Node.new name kind)).edited edits).update
      g.nodes.length (Node.Edit.disconnect socket).apply = .ok g' :=
    ⟨_, (update_eq_ok_iff hn).mpr ⟨_, Node.disconnect_eq_ok_iff.mpr ⟨s, hs, rfl⟩, rfl⟩⟩
  obtain ⟨m, t, hm, ht, hrebinds⟩ :=
    rebinds_of_update (.disconnect socket) hbuilt.conforms hdisconnect
  obtain rfl : m = n := Option.some.inj (hm.symm.trans hn)
  obtain ⟨n', hn', hsocket⟩ := hrebinds.socket? hn hs
  obtain ⟨fresh', hfresh', hsame⟩ := hconforms.exists_fresh hs
  rw [hname, hkind] at hfresh'
  refine ⟨g', n', hdisconnect, hn', hsocket.trans ?_⟩
  rw [hsame]
  exact hfresh'.symm.trans hfresh

/-- For every graph that can be built: an operation in place that stops with an error leaves the
graph as it was, and otherwise comes to what the operation gives.  An operation that binds a socket
or points out the root and succeeds changes what is bound to that one socket, or the root, and
nothing else.  Two such operations at different places can be performed in either order with the
same result, and both succeed if each of them does.  Operations on a socket make no difference to
giving the socket back its default afterwards, and after any history that leaves its sockets as they
were made. -/
theorem edits_atomic_and_local (g : Graph) (hg : g.Built) :
    (∀ (e : Edit) err g', e.perform.run g = .error err g' → g' = g ∧ e.apply g = .error err) ∧
      (∀ (e : Edit) g', e.perform.run g = .ok () g' ↔ e.apply g = .ok g') ∧
      (∀ (e : Edit) g', e.place ≠ none → e.apply g = .ok g' → e.Effect g g') ∧
      (∀ e e' : Edit, e.place ≠ none → e'.place ≠ none → e.place ≠ e'.place →
        (∀ h, (e.apply g >>= e'.apply) = .ok h ↔ (e'.apply g >>= e.apply) = .ok h) ∧
        ∀ g₁ g₂, e.apply g = .ok g₁ → e'.apply g = .ok g₂ →
          ∃ h, (e.apply g >>= e'.apply) = .ok h) ∧
      (∀ id socket (edits : List Edit), (∀ e ∈ edits, e.place = some (.socket id socket)) →
        (g.edited edits).disconnect id socket = g.disconnect id socket) ∧
      ∀ name kind (edits : List Edit) socket fresh, (∀ e ∈ edits, e.inPlace) →
        (Node.new name kind).socket? socket = some fresh →
        ∃ g' n, ((g.add (Node.new name kind)).edited edits).disconnect g.nodes.length socket =
            .ok g' ∧
          g'.nodes[g.nodes.length]? = some n ∧ n.socket? socket = some fresh := by
  refine ⟨fun e err g' h => ?_, fun e g' => ?_, fun e g' => e.effect_of_apply hg.conforms,
    fun e e' he he' hplace => ?_, fun id socket edits hplace => ?_,
    fun name kind edits socket fresh hplace hfresh => exists_disconnect_edited hg hplace hfresh⟩
  · rw [e.run_perform] at h
    cases happly : e.apply g with
    | ok g'' => simp [happly] at h
    | error err' =>
      obtain ⟨rfl, rfl⟩ : err' = err ∧ g = g' := by simpa [happly] using h
      exact ⟨rfl, rfl⟩
  · rw [e.run_perform]
    cases e.apply g <;> simp
  · obtain ⟨w, hw⟩ : ∃ w, e.write? = some w := by
      simpa [Edit.place, ← Option.ne_none_iff_exists'] using he
    obtain ⟨w', hw'⟩ : ∃ w, e'.write? = some w := by
      simpa [Edit.place, ← Option.ne_none_iff_exists'] using he'
    have hplace : w.place ≠ w'.place := by simpa [Edit.place, hw, hw'] using hplace
    refine ⟨fun h => ⟨Edit.bind_of_bind hw hw' hplace, Edit.bind_of_bind hw' hw hplace.symm⟩, ?_⟩
    intro g₁ g₂ hfirst hsecond
    obtain rfl := e.eq_run_of_apply hw hfirst
    exact ⟨_, bind_eq_ok_iff.mpr
      ⟨_, hfirst, e'.apply_of_shape hw' (w.shape_run g).symm hsecond⟩⟩
  · exact Edit.apply_edited_of_place (e := .disconnect id socket) rfl hplace

/-- In the graph of the rough history a value of the wrong type is refused before anything is
written; a value and the root can be written in either order; and a socket that is connected to its
own node can be given back its default. -/
theorem edits_atomic_and_local_rough :
    let g := empty.edited rough
    let value : Edit := .setValue 1 "Value2" ⟨.float, "3.0"⟩
    g.Built ∧
      (Edit.setValue 0 "Color1" ⟨.float, "1.0"⟩).perform.run g =
        .error (.typeMismatch "mix" "Color1" .vec3 .float) g ∧
      (Edit.setValue 0 "Color1" ⟨.float, "1.0"⟩).apply g =
        .error (.typeMismatch "mix" "Color1" .vec3 .float) ∧
      (∃ h, (value.apply g >>= (Edit.setRoot 1).apply) = .ok h ∧
        ((Edit.setRoot 1).apply g >>= value.apply) = .ok h) ∧
      ∃ g', (Edit.disconnect 1 "Value1").apply g = .ok g' ∧
        (Edit.disconnect 1 "Value1").Effect g g' ∧ g'.producersOf 1 = [] := by
  intro g value
  have hbuilt : g.Built := ⟨rough, rfl⟩
  have hstop : (Edit.setValue 0 "Color1" ⟨.float, "1.0"⟩).perform.run g =
      .error (.typeMismatch "mix" "Color1" .vec3 .float) g := by rfl
  obtain ⟨hatomic, -, heffect, hcomm, -⟩ := edits_atomic_and_local g hbuilt
  obtain ⟨hiff, hboth⟩ := hcomm value (.setRoot 1) (by decide) (by decide) (by decide)
  obtain ⟨h, hh⟩ := hboth _ _ rfl rfl
  exact ⟨hbuilt, hstop, (hatomic _ _ _ hstop).2, ⟨h, hh, (hiff h).mp hh⟩, _, rfl,
    heffect (.disconnect 1 "Value1") _ (by decide) rfl, by decide⟩

end Graph

end MaterialGraph
