import Mathlib.Data.List.Forall2
import Mathlib.Data.List.Nodup
import Mathlib.Tactic.Common
import MaterialGraph.Graph.Edit
import MaterialGraph.Proofs.Kind.Naming

/-!
# Graphs that can be built

A graph comes about by a history of edits: nodes are added, sockets are bound, and a root is
pointed out.  An edit that fails leaves the graph as it was.  This file describes histories as data
(`Graph.Edit`, `Graph.edited`, `Graph.Built`) and proves what every node keeps through them: its
sockets are those that its kind declares, and a literal on a socket has the type of the socket
(`Node.Conforms`).

What holds for new nodes and is kept by the edits of a node holds for every node of every graph that
can be built (`Graph.forall_mem_nodes_edited`).
-/

namespace MaterialGraph

/-! ### Histories -/

/-- An operation on a node. -/
inductive Node.Edit where
  | setValue (socket : String) (value : Literal)
  | connect (socket : String) (producer : NodeId)
  | disconnect (socket : String)
  deriving DecidableEq

/-- What an operation makes of a node. -/
def Node.Edit.apply : Node.Edit → Node → Except GraphError Node
  | setValue socket value, n => n.setValue socket value
  | connect socket producer, n => n.connect socket producer
  | disconnect socket, n => n.disconnect socket

/-- The node after some operations, of which those that fail change nothing. -/
def Node.edited (n : Node) : List Node.Edit → Node
  | [] => n
  | e :: es =>
    match e.apply n with
    | .ok n' => n'.edited es
    | .error _ => n.edited es

/-- An operation on a graph.  A node may have been worked on before it is added or put in the place
of another one. -/
inductive Graph.Edit where
  | add (name : String) (kind : Kind) (edits : List Node.Edit)
  | replace (id : NodeId) (name : String) (kind : Kind) (edits : List Node.Edit)
  | setValue (id : NodeId) (socket : String) (value : Literal)
  | connect (consumer : NodeId) (socket : String) (producer : NodeId)
  | attach (consumer : NodeId) (socket : String) (producer : NodeId)
  | disconnect (id : NodeId) (socket : String)
  | setRoot (id : NodeId)
  deriving DecidableEq

/-- What an operation makes of a graph. -/
def Graph.Edit.apply : Graph.Edit → Graph → Except GraphError Graph
  | add name kind edits, g => .ok (g.add ((Node.new name kind).edited edits))
  | replace id name kind edits, g => g.update id fun _ => .ok ((Node.new name kind).edited edits)
  | setValue id socket value, g => g.setValue id socket value
  | connect consumer socket producer, g => g.connect consumer socket producer
  | attach consumer socket producer, g => g.attach consumer socket producer
  | disconnect id socket, g => g.disconnect id socket
  | setRoot id, g => g.setRoot id

/-- The graph after some operations, of which those that fail change nothing. -/
def Graph.edited (g : Graph) : List Graph.Edit → Graph
  | [] => g
  | e :: es =>
    match e.apply g with
    | .ok g' => g'.edited es
    | .error _ => g.edited es

/-- A graph that can be built. -/
def Graph.Built (g : Graph) : Prop :=
  ∃ edits, Graph.empty.edited edits = g

variable {P : Node → Prop}

/-- A property of nodes that the edits of a node keep is kept by histories of such edits. -/
lemma Node.edited_of_apply
    (hedit : ∀ (e : Node.Edit) (n n' : Node), P n → e.apply n = .ok n' → P n')
    {n : Node} (hn : P n) (edits : List Node.Edit) : P (n.edited edits) := by
  induction edits generalizing n with
  | nil => exact hn
  | cons e es ih =>
    unfold Node.edited
    cases h : e.apply n with
    | ok n' => exact ih (hedit e n n' hn h)
    | error _ => exact ih hn

/-! ### Operations that succeed -/

/-- A value is put on a socket just if there is such a socket and it has the type of the value. -/
lemma Node.setValue_eq_ok_iff {n n' : Node} {socket : String} {value : Literal} :
    n.setValue socket value = .ok n' ↔ ∃ s, n.socket? socket = some s ∧ s.type = value.type ∧
      n' = n.bind socket (some (.literal value)) := by
  unfold Node.setValue
  cases hs : n.socket? socket with
  | none => simp
  | some s =>
    by_cases htype : s.type = value.type
    · simp [htype, eq_comm]
    · simp [htype]

/-- A socket is connected just if there is such a socket. -/
lemma Node.connect_eq_ok_iff {n n' : Node} {socket : String} {producer : NodeId} :
    n.connect socket producer = .ok n' ↔ ∃ s, n.socket? socket = some s ∧
      n' = n.bind socket (some (.connection producer)) := by
  unfold Node.connect
  cases hs : n.socket? socket with
  | none => simp
  | some s => simp [eq_comm]

/-- A socket is given back its default just if there is such a socket. -/
lemma Node.disconnect_eq_ok_iff {n n' : Node} {socket : String} :
    n.disconnect socket = .ok n' ↔ ∃ s, n.socket? socket = some s ∧
      n' = n.bind socket (((n.kind.sockets.find? fun spec => spec.name == socket).bind
        SocketSpec.default).map .literal) := by
  unfold Node.disconnect
  cases hs : n.socket? socket with
  | none => simp
  | some s => simp [eq_comm]

/-- A node of a graph is changed just if the change succeeds. -/
lemma Graph.update_eq_ok_iff {g g' : Graph} {id : NodeId} {n : Node}
    (hn : g.nodes[id]? = some n) {change : Node → Except GraphError Node} :
    g.update id change = .ok g' ↔
      ∃ n', change n = .ok n' ∧ g' = { g with nodes := g.nodes.set id n' } := by
  unfold update node
  cases hchange : change n with
  | error e => simp [hn, hchange]
  | ok n' => simp [hn, hchange, eq_comm]

/-! ### Nodes in a history -/

namespace Graph

/-- Changing a node of a graph leaves the other nodes alone. -/
lemma mem_nodes_update {g g' : Graph} {id : NodeId} {change : Node → Except GraphError Node}
    (h : g.update id change = .ok g') {n : Node} (hn : n ∈ g'.nodes) :
    n ∈ g.nodes ∨ ∃ m ∈ g.nodes, change m = .ok n := by
  unfold update node at h
  cases hm : g.nodes[id]? with
  | none => simp [hm] at h
  | some m =>
    cases hchange : change m with
    | error e => simp [hm, hchange] at h
    | ok m' =>
      simp only [hm, hchange, Except.ok.injEq] at h
      rw [← h] at hn
      rcases List.mem_or_eq_of_mem_set hn with hold | hnew
      · exact Or.inl hold
      · exact Or.inr ⟨m, List.mem_of_getElem? hm, by rw [hnew, hchange]⟩

/-- An operation on a graph puts in a node, edits one, or leaves the nodes alone. -/
lemma mem_nodes_apply {e : Graph.Edit} {g g' : Graph} (h : e.apply g = .ok g') {n : Node}
    (hn : n ∈ g'.nodes) :
    (∃ name kind edits, (Node.new name kind).edited edits = n) ∨
      n ∈ g.nodes ∨ ∃ m ∈ g.nodes, ∃ edit : Node.Edit, edit.apply m = .ok n := by
  have hupdate : ∀ (id : NodeId) (edit : Node.Edit), g.update id edit.apply = .ok g' →
      n ∈ g.nodes ∨ ∃ m ∈ g.nodes, ∃ edit : Node.Edit, edit.apply m = .ok n := by
    intro id edit h
    rcases mem_nodes_update h hn with hold | ⟨m, hm, hedit⟩
    · exact Or.inl hold
    · exact Or.inr ⟨m, hm, edit, hedit⟩
  cases e with
  | add name kind edits =>
    rw [← Except.ok.inj h] at hn
    rcases List.mem_append.mp hn with hold | hnew
    · exact Or.inr (Or.inl hold)
    · exact Or.inl ⟨name, kind, edits, (List.mem_singleton.mp hnew).symm⟩
  | replace id name kind edits =>
    have h : g.update id (fun _ => .ok ((Node.new name kind).edited edits)) = .ok g' := h
    rcases mem_nodes_update h hn with hold | ⟨_, _, hnew⟩
    · exact Or.inr (Or.inl hold)
    · exact Or.inl ⟨name, kind, edits, Except.ok.inj hnew⟩
  | setValue id socket value => exact Or.inr (hupdate id (.setValue socket value) h)
  | connect consumer socket producer =>
    have h : g.connect consumer socket producer = .ok g' := h
    unfold connect at h
    cases hp : g.node producer with
    | error e => simp [hp] at h
    | ok p =>
      simp only [hp] at h
      exact Or.inr (hupdate consumer (.connect socket producer) h)
  | attach consumer socket producer =>
    exact Or.inr (hupdate consumer (.connect socket producer) h)
  | disconnect id socket => exact Or.inr (hupdate id (.disconnect socket) h)
  | setRoot id =>
    have h : g.setRoot id = .ok g' := h
    unfold setRoot at h
    cases hid : g.node id with
    | error e => simp [hid] at h
    | ok m =>
      simp only [hid, Except.ok.injEq] at h
      rw [← h] at hn
      exact Or.inr (Or.inl hn)

/-- What holds for new nodes and is kept by the edits of a node holds for every node of every graph
that can be built. -/
theorem forall_mem_nodes_edited (hnew : ∀ name kind, P (Node.new name kind))
    (hedit : ∀ (e : Node.Edit) (n n' : Node), P n → e.apply n = .ok n' → P n')
    {g : Graph} (hg : ∀ n ∈ g.nodes, P n) (edits : List Graph.Edit) :
    ∀ n ∈ (g.edited edits).nodes, P n := by
  induction edits generalizing g with
  | nil => exact hg
  | cons e es ih =>
    unfold edited
    cases h : e.apply g with
    | error _ => exact ih hg
    | ok g' =>
      refine ih fun n hn => ?_
      rcases mem_nodes_apply h hn with ⟨name, kind, nodeEdits, rfl⟩ | hold | ⟨m, hm, edit, hn⟩
      · exact Node.edited_of_apply hedit (hnew name kind) nodeEdits
      · exact hg n hold
      · exact hedit edit m n (hg m hm) hn

end Graph

/-! ### Sockets as their kind declares them -/

/-- A socket is as a kind declares it: it has the name and type of the declaration, a literal on it
has that type, and it is without a value only if there is no default. -/
structure Socket.Conforms (spec : SocketSpec) (s : Socket) : Prop where
  name : s.name = spec.name
  type : s.type = spec.type
  literal : ∀ value, s.binding = some (.literal value) → value.type = s.type
  bound : s.binding = none → spec.default = none

/-- The sockets of a node are those that its kind declares, in order. -/
def Node.Conforms (n : Node) : Prop :=
  List.Forall₂ Socket.Conforms n.kind.sockets n.sockets

namespace Socket

variable {specs : List SocketSpec} {sockets : List Socket} {name : String}

/-- Looking a name up among the sockets finds what it finds among the declarations. -/
lemma find?_conforms (h : List.Forall₂ Conforms specs sockets) {s : Socket}
    (hs : (sockets.find? fun s => s.name == name) = some s) :
    ∃ spec, (specs.find? fun spec => spec.name == name) = some spec ∧ Conforms spec s := by
  induction h with
  | nil => simp at hs
  | @cons spec head specs sockets hhead _ ih =>
    by_cases hname : head.name = name
    · have hs : head = s := by simpa [List.find?_cons, hname] using hs
      subst hs
      exact ⟨spec, by simp [← hhead.name, hname], hhead⟩
    · have hspec : spec.name ≠ name := by rwa [← hhead.name]
      obtain ⟨found, hfound, hconforms⟩ := ih (by simpa [List.find?_cons, hname] using hs)
      exact ⟨found, by simpa [List.find?_cons, hspec] using hfound, hconforms⟩

/-- Sockets stay as they are declared if the new binding fits the declaration of its socket. -/
lemma rebind_conforms {binding : Option Binding} (h : List.Forall₂ Conforms specs sockets)
    (hbinding : ∀ spec, (specs.find? fun spec => spec.name == name) = some spec →
      ∀ s, Conforms spec s → Conforms spec { s with binding := binding }) :
    List.Forall₂ Conforms specs (rebind name binding sockets) := by
  induction h with
  | nil => exact List.Forall₂.nil
  | @cons spec head specs sockets hhead htail ih =>
    unfold rebind
    by_cases hname : head.name = name
    · rw [if_pos (by simpa using hname)]
      refine List.Forall₂.cons (hbinding spec ?_ head hhead) htail
      simp [← hhead.name, hname]
    · have hspec : spec.name ≠ name := by rwa [← hhead.name]
      rw [if_neg (by simpa using hname)]
      refine List.Forall₂.cons hhead (ih fun found hfound => hbinding found ?_)
      simpa [List.find?_cons, hspec] using hfound

/-- Binding by name changes the one socket of that name, if no two have one name. -/
lemma rebind_eq_map {binding : Option Binding} (hnames : (sockets.map Socket.name).Nodup) :
    rebind name binding sockets =
      sockets.map fun s => if s.name = name then { s with binding := binding } else s := by
  induction sockets with
  | nil => rfl
  | cons s sockets ih =>
    rw [List.map_cons, List.nodup_cons] at hnames
    by_cases hs : s.name = name
    · have hother : ∀ t ∈ sockets, t.name ≠ name := by
        rintro t ht rfl
        exact hnames.1 (hs ▸ List.mem_map_of_mem ht)
      have hsame : sockets = sockets.map fun t =>
          if t.name = name then { t with binding := binding } else t :=
        (List.map_id _).symm.trans (List.map_congr_left fun t ht => (if_neg (hother t ht)).symm)
      simp [rebind, hs, ← hsame]
    · simp [rebind, hs, ih hnames.2]

end Socket

namespace Node

/-- The sockets of a node have the names that its kind declares. -/
lemma Conforms.map_name {n : Node} (hn : n.Conforms) :
    n.sockets.map Socket.name = n.kind.sockets.map SocketSpec.name := by
  have hnames : List.Forall₂ Eq (n.sockets.map Socket.name)
      (n.kind.sockets.map SocketSpec.name) := by
    rw [List.forall₂_map_left_iff, List.forall₂_map_right_iff]
    exact hn.flip.imp fun _ _ h => h.name
  rwa [List.forall₂_eq_eq_eq] at hnames

/-- No two sockets of a node have one name. -/
lemma Conforms.nodup_names {n : Node} (hn : n.Conforms) : (n.sockets.map Socket.name).Nodup := by
  rw [hn.map_name]
  exact n.kind.nodup_socket_names

/-- A node has the sockets that its kind declares. -/
lemma Conforms.exists_socket {n : Node} (hn : n.Conforms) {spec : SocketSpec}
    (hspec : spec ∈ n.kind.sockets) :
    ∃ s, n.socket? spec.name = some s ∧ s.type = spec.type := by
  have hname : spec.name ∈ n.sockets.map Socket.name := by
    rw [hn.map_name]
    exact List.mem_map_of_mem hspec
  obtain ⟨t, ht, hname⟩ := List.mem_map.mp hname
  have hsome : (n.socket? spec.name).isSome := by
    unfold socket?
    rw [List.find?_isSome]
    exact ⟨t, ht, by simpa using hname⟩
  obtain ⟨s, hs⟩ := Option.isSome_iff_exists.mp hsome
  obtain ⟨found, hfound, hconforms⟩ := Socket.find?_conforms hn hs
  -- the declaration that is found has the name of `spec`, and no other one has
  have hsame : found = spec :=
    List.inj_on_of_nodup_map n.kind.nodup_socket_names (List.mem_of_find?_eq_some hfound) hspec
      (by simpa using List.find?_some hfound)
  exact ⟨s, hs, by rw [hconforms.type, hsame]⟩

/-- A literal on a socket has the type of the socket. -/
lemma Conforms.literal_type {n : Node} (hn : n.Conforms) {s : Socket} (hs : s ∈ n.sockets) :
    ∀ value, s.binding = some (.literal value) → value.type = s.type := by
  obtain ⟨i, hi, rfl⟩ := List.mem_iff_getElem.mp hs
  exact (hn.get (by rw [hn.length_eq]; exact hi) hi).literal

/-- A new node is as its kind declares it. -/
lemma new_conforms (name : String) (kind : Kind) : (Node.new name kind).Conforms := by
  have hspecs : ∀ spec ∈ kind.sockets, Socket.Conforms spec (Socket.ofSpec spec) := by
    intro spec hspec
    refine ⟨rfl, rfl, fun value hvalue => ?_, fun hnone => ?_⟩
    · have hdefault : spec.default = some value := by simpa [Socket.ofSpec] using hvalue
      exact kind.default_type spec hspec value hdefault
    · simpa [Socket.ofSpec] using hnone
  exact List.forall₂_map_right_iff.mpr (List.forall₂_same.mpr hspecs)

/-- Binding a socket anew keeps a node as its kind declares it if the binding fits. -/
lemma bind_conforms {n : Node} (hn : n.Conforms) {socket : String} {binding : Option Binding}
    (hbinding : ∀ spec, (n.kind.sockets.find? fun spec => spec.name == socket) = some spec →
      ∀ s, Socket.Conforms spec s → Socket.Conforms spec { s with binding := binding }) :
    (n.bind socket binding).Conforms :=
  Socket.rebind_conforms hn hbinding

/-- A node stays as its kind declares it. -/
lemma apply_conforms (e : Node.Edit) (n n' : Node) (hn : n.Conforms) (h : e.apply n = .ok n') :
    n'.Conforms := by
  cases e with
  | setValue socket value =>
    obtain ⟨s, hs, htype, rfl⟩ := setValue_eq_ok_iff.mp h
    obtain ⟨spec, hspec, hconforms⟩ := Socket.find?_conforms hn hs
    refine bind_conforms hn fun found hfound t ht => ?_
    rw [hspec] at hfound
    obtain rfl := Option.some.inj hfound
    refine ⟨ht.name, ht.type, fun literal hliteral => ?_, fun hnone => by simp at hnone⟩
    obtain rfl : value = literal := by simpa using hliteral
    exact htype.symm.trans (hconforms.type.trans ht.type.symm)
  | connect socket producer =>
    obtain ⟨s, hs, rfl⟩ := connect_eq_ok_iff.mp h
    exact bind_conforms hn fun found _ t ht => ⟨ht.name, ht.type, by simp, by simp⟩
  | disconnect socket =>
    obtain ⟨s, hs, rfl⟩ := disconnect_eq_ok_iff.mp h
    refine bind_conforms hn fun found hfound t ht => ?_
    simp only [hfound, Option.bind_some]
    refine ⟨ht.name, ht.type, fun literal hliteral => ?_, fun hnone => by simpa using hnone⟩
    have hdefault : found.default = some literal := by simpa using hliteral
    exact (n.kind.default_type found (List.mem_of_find?_eq_some hfound) literal hdefault).trans
      ht.type.symm

end Node

/-- Every node of a graph that can be built is as its kind declares it. -/
theorem Graph.Built.conforms {g : Graph} (hg : g.Built) : ∀ n ∈ g.nodes, n.Conforms := by
  obtain ⟨edits, rfl⟩ := hg
  exact forall_mem_nodes_edited Node.new_conforms Node.apply_conforms (by simp [Graph.empty]) edits

end MaterialGraph
