import Mathlib
import MaterialGraph.Proofs.Document.Loading
import MaterialGraph.Proofs.Shader.Outcome

/-!
# Graphs of documents

What can go wrong with a document after it has been loaded.  The graph that loading gives
(`Loaded`) has a root, its connections lead to nodes, and its nodes are as their kinds declare them.
So an error of compiling it can be traced back to something that the author wrote or left out:
links that lead in a circle, a link to a node whose output does not fit, or a socket that needs an
input and has none.  `Authored` lists these reasons in terms of the document.

Main statement: `compile_fails_as_authored`.
-/

namespace MaterialGraph.Document

open Relation

/-! ### Links -/

/-- The input that decides what a socket holds: the last one of its name. -/
def Node.Lists (n : Node) (socket : String) (input : Input) : Prop :=
  ∃ before after, n.inputs = before ++ (socket, input) :: after ∧
    ∀ entry ∈ after, entry.1 ≠ socket

/-- A node of a document links to another one if a socket of it is given the id of that one. -/
structure Links (d : Document) (n target : Node) : Prop where
  mem : n ∈ d.nodes
  target_mem : target ∈ d.nodes
  link : ∃ socket, n.Lists socket (.link target.id)

/-- Why compiling can fail, as it can be seen in a document. -/
inductive Authored (d : Document) : GraphError → Prop where
  /-- Links lead from a node back to itself. -/
  | cycle {n : Node} (hcycle : TransGen d.Links n n) : Authored d (.cycle n.id)
  /-- A socket is linked to a node whose output has another type. -/
  | mismatch {n target : Node} {k k' : Kind} {spec : SocketSpec} (hn : n ∈ d.nodes)
      (hk : n.HasKind k) (hspec : spec ∈ k.sockets) (hlink : n.Lists spec.name (.link target.id))
      (htarget : target ∈ d.nodes) (hk' : target.HasKind k') (htype : k'.output ≠ spec.type) :
      Authored d (.typeMismatch n.id spec.name spec.type k'.output)
  /-- A socket without a default has no input. -/
  | unbound {n : Node} {k : Kind} {spec : SocketSpec} (hn : n ∈ d.nodes) (hk : n.HasKind k)
      (hspec : spec ∈ k.sockets) (hdefault : spec.default = none)
      (hinputs : ∀ entry ∈ n.inputs, entry.1 ≠ spec.name) : Authored d (.unbound n.id spec.name)

variable {d : Document}

/-- Partners stand at the same place. -/
lemma exists_partner {α β : Type} {R : α → β → Prop} {l : List α} {l' : List β}
    (h : List.Forall₂ R l l') {i : Nat} {b : β} (hb : l'[i]? = some b) :
    ∃ a, l[i]? = some a ∧ R a b := by
  obtain ⟨hi', rfl⟩ := List.getElem?_eq_some_iff.mp hb
  have hi : i < l.length := by rw [h.length_eq]; exact hi'
  exact ⟨l[i], List.getElem?_eq_getElem hi, h.get hi hi'⟩

/-- A socket that is connected although it was not so before has been given a link. -/
lemma Bound.exists_link {inputs : List (String × Input)} {name : String} {type : ValueType}
    {held : Option Binding} {p : NodeId} (h : d.Bound inputs name type held (some (.connection p)))
    (hheld : held ≠ some (.connection p)) :
    ∃ target before after, d.nodes[p]? = some target ∧
      inputs = before ++ (name, .link target.id) :: after ∧
      ∀ entry ∈ after, entry.1 ≠ name := by
  cases h with
  | listed hinputs hlast hbinds =>
    cases hbinds with
    | link htarget hid =>
      subst hid
      exact ⟨_, _, _, htarget, hinputs, hlast⟩
  | unlisted => exact absurd rfl hheld

/-- A socket without a value had none before, and no input of its name. -/
lemma Bound.unlisted_of_none {inputs : List (String × Input)} {name : String} {type : ValueType}
    {held : Option Binding} (h : d.Bound inputs name type held none) :
    held = none ∧ ∀ entry ∈ inputs, entry.1 ≠ name := by
  cases h with
  | unlisted hinputs => exact ⟨rfl, hinputs⟩

namespace Represents

variable {n : Node} {node : MaterialGraph.Node} {s : Socket}

/-- Every socket is declared by the kind of its node and holds what the inputs put there. -/
lemma exists_spec (h : d.Represents n node) (hs : s ∈ node.sockets) :
    ∃ spec ∈ node.kind.sockets, s.name = spec.name ∧ s.type = spec.type ∧
      d.Bound n.inputs spec.name spec.type (spec.default.map .literal) s.binding := by
  obtain ⟨i, hi⟩ := List.getElem?_of_mem hs
  obtain ⟨spec, hspec, hsocket⟩ := exists_partner h.sockets hi
  exact ⟨spec, List.mem_of_getElem? hspec, hsocket⟩

/-- A socket that is connected has been given a link to the producer. -/
lemma exists_link (h : d.Represents n node) (hs : s ∈ node.sockets) {p : NodeId}
    (hbinding : s.binding = some (.connection p)) :
    ∃ spec ∈ node.kind.sockets, s.name = spec.name ∧ s.type = spec.type ∧
      ∃ target, d.nodes[p]? = some target ∧ n.Lists spec.name (.link target.id) := by
  obtain ⟨spec, hspec, hname, htype, hbound⟩ := h.exists_spec hs
  rw [hbinding] at hbound
  have hheld : spec.default.map Binding.literal ≠ some (.connection p) := by
    cases spec.default <;> simp
  obtain ⟨target, before, after, htarget, hinputs, hlast⟩ := hbound.exists_link hheld
  exact ⟨spec, hspec, hname, htype, target, htarget, before, after, hinputs, hlast⟩

/-- A socket without a value has no default and no input. -/
lemma unlisted_of_unbound (h : d.Represents n node) (hs : s ∈ node.sockets)
    (hbinding : s.binding = none) :
    ∃ spec ∈ node.kind.sockets, s.name = spec.name ∧ spec.default = none ∧
      ∀ entry ∈ n.inputs, entry.1 ≠ spec.name := by
  obtain ⟨spec, hspec, hname, _, hbound⟩ := h.exists_spec hs
  rw [hbinding] at hbound
  obtain ⟨hheld, hinputs⟩ := hbound.unlisted_of_none
  exact ⟨spec, hspec, hname, Option.map_eq_none_iff.mp hheld, hinputs⟩

end Represents

/-! ### Graphs that are loaded -/

/-- A graph is made from a document: a node for each node, filled with its inputs, and the root at
the place of the output. -/
structure Loaded (d : Document) (g : Graph) : Prop where
  ids : (d.nodes.map Node.id).Nodup
  filled : List.Forall₂ d.Filled d.nodes g.nodes
  output : ∃ i, d.find? d.output = some i ∧ g.root = some i

/-- Loading makes the graph from the document. -/
lemma loaded_of_load {m : Material} (h : d.load.result = .ok m) : d.Loaded m.graph := by
  obtain ⟨hids, filled, i, hfilled, houtput, rfl⟩ := load_eq_ok_iff.mp h
  exact ⟨hids, hfilled, i, houtput, rfl⟩

/-- A node stays as its kind declares it when its inputs are put on its sockets. -/
lemma Fills.conforms {inputs : List (String × Input)} {n n' : MaterialGraph.Node}
    (h : d.Fills inputs n n') (hn : n.Conforms) : n'.Conforms := by
  induction h with
  | nil => exact hn
  | cons hsocket hbinds _ ih => exact ih (hbinds.conforms hn hsocket)

namespace Loaded

variable {g : Graph} {i p : NodeId} {node : MaterialGraph.Node}

/-- A node of the graph represents the node of the document at the same place. -/
lemma exists_represents (h : d.Loaded g) (hnode : g.nodes[i]? = some node) :
    ∃ n, d.nodes[i]? = some n ∧ d.Represents n node := by
  obtain ⟨n, hn, hfilled⟩ := exists_partner h.filled hnode
  exact ⟨n, hn, hfilled.represents⟩

/-- The nodes of the graph are as their kinds declare them. -/
lemma conforms (h : d.Loaded g) : ∀ node ∈ g.nodes, node.Conforms := by
  intro node hnode
  obtain ⟨i, hi⟩ := List.getElem?_of_mem hnode
  obtain ⟨n, _, made, ⟨k, _, rfl⟩, hfills⟩ := exists_partner h.filled hi
  exact hfills.conforms (MaterialGraph.Node.new_conforms n.id k)

/-- A place of the document is a place of the graph. -/
lemma lt_length (h : d.Loaded g) {n : Node} (hn : d.nodes[i]? = some n) : i < g.nodes.length := by
  obtain ⟨hi, _⟩ := List.getElem?_eq_some_iff.mp hn
  rw [← h.filled.length_eq]
  exact hi

/-- A connection of the graph is a link of the document. -/
lemma links_of_reads (h : d.Loaded g) (hread : g.Reads i p) {n : Node}
    (hn : d.nodes[i]? = some n) : ∃ target, d.nodes[p]? = some target ∧ d.Links n target := by
  obtain ⟨node, hnode, hp⟩ := Graph.reads_iff.mp hread
  obtain ⟨n', hn', hrepresents⟩ := h.exists_represents hnode
  rw [hn] at hn'
  obtain rfl := Option.some.inj hn'
  obtain ⟨s, hs, hbinding⟩ := Node.mem_producers_iff.mp hp
  obtain ⟨spec, _, _, _, target, htarget, hlink⟩ := hrepresents.exists_link hs hbinding
  exact ⟨target, htarget, List.mem_of_getElem? hn, List.mem_of_getElem? htarget, spec.name, hlink⟩

/-- A chain of connections is a chain of links. -/
lemma links_of_depends (h : d.Loaded g) (hchain : TransGen g.Reads i p) {n : Node}
    (hn : d.nodes[i]? = some n) :
    ∃ target, d.nodes[p]? = some target ∧ TransGen d.Links n target := by
  induction hchain with
  | single hread =>
    obtain ⟨target, htarget, hlinks⟩ := h.links_of_reads hread hn
    exact ⟨target, htarget, .single hlinks⟩
  | tail _ hread ih =>
    obtain ⟨middle, hmiddle, hchain⟩ := ih
    obtain ⟨target, htarget, hlinks⟩ := h.links_of_reads hread hmiddle
    exact ⟨target, htarget, hchain.tail hlinks⟩

/-- Everything that the output depends on is a node of the graph. -/
lemma lt_length_of_reachable (h : d.Loaded g) (hi : g.Reachable i) : i < g.nodes.length := by
  obtain ⟨root, hroot, hreach⟩ := hi
  obtain ⟨output, houtput, hroot'⟩ := h.output
  obtain ⟨n, hn, _⟩ := (find?_eq_some_iff h.ids).mp houtput
  have hsame : output = root := Option.some.inj (hroot'.symm.trans hroot)
  rw [hsame] at hn
  rcases reflTransGen_iff_eq_or_transGen.mp hreach with rfl | hchain
  · exact h.lt_length hn
  · obtain ⟨target, htarget, _⟩ := h.links_of_depends hchain hn
    exact h.lt_length htarget

/-! ### Errors and their reasons -/

/-- If there is no order of generation, then because of links in a circle. -/
lemma authored_of_trueOf (h : d.Loaded g) {e : GraphError} (he : e.TrueOf g) : d.Authored e := by
  cases e with
  | noRoot =>
    obtain ⟨i, _, hroot⟩ := h.output
    have hnone : g.root = none := he
    rw [hnone] at hroot
    cases hroot
  | unknownNode p =>
    obtain ⟨hout, hp⟩ := he
    have hreach : g.Reachable p := by
      rcases hp with hroot | ⟨id, hid, hread⟩
      · exact ⟨p, hroot, .refl⟩
      · exact hid.reads hread
    exact absurd (h.lt_length_of_reachable hreach) (Nat.not_lt.mpr hout)
  | cycle name =>
    obtain ⟨i, node, _, hnode, rfl, hcycle⟩ := he
    obtain ⟨n, hn, hrepresents⟩ := h.exists_represents hnode
    obtain ⟨target, htarget, hlinks⟩ := h.links_of_depends hcycle hn
    rw [hn] at htarget
    obtain rfl := Option.some.inj htarget
    rw [hrepresents.name]
    exact .cycle hlinks
  | _ => exact he.elim

/-- What is wrong with a socket is something that the author wrote or left out. -/
lemma authored_of_fault (h : d.Loaded g) (hnode : g.nodes[i]? = some node) {s : Socket}
    (hs : s ∈ node.sockets) {e : GraphError} (he : g.Fault node s e) : d.Authored e := by
  obtain ⟨n, hn, hrepresents⟩ := h.exists_represents hnode
  have hmem : n ∈ d.nodes := List.mem_of_getElem? hn
  cases he with
  | unbound hbinding =>
    obtain ⟨spec, hspec, hname, hdefault, hinputs⟩ := hrepresents.unlisted_of_unbound hs hbinding
    rw [hrepresents.name, hname]
    exact .unbound hmem hrepresents.kind hspec hdefault hinputs
  | @mismatch p producer hbinding hp htype =>
    obtain ⟨spec, hspec, hname, hspecType, target, htarget, hlink⟩ :=
      hrepresents.exists_link hs hbinding
    obtain ⟨target', htarget', hproducer⟩ := h.exists_represents hp
    rw [htarget] at htarget'
    obtain rfl := Option.some.inj htarget'
    rw [hspecType] at htype ⊢
    rw [hrepresents.name, hname]
    exact .mismatch hmem hrepresents.kind hspec hlink (List.mem_of_getElem? htarget)
      hproducer.kind htype

end Loaded

/-- A document that can be loaded compiles, or fails to compile for a reason that its author can
see: links in a circle, a link between types that do not fit, or a socket without a default and
without an input.  No other error occurs. -/
theorem compile_fails_as_authored (d : Document) (m : Material) (h : d.load.result = .ok m)
    (options : Options) :
    (∃ shader, (m.graph.compile options).result = .ok shader) ∨
      ∃ e, (m.graph.compile options).result = .error e ∧ d.Authored e := by
  have hloaded := loaded_of_load h
  cases horder : m.graph.evaluate with
  | error e =>
    refine Or.inr ⟨e, ?_, hloaded.authored_of_trueOf (Graph.trueOf_of_evaluate horder)⟩
    rw [Graph.compile_of_evaluate_eq_error horder]
  | ok order =>
    rcases Graph.compile_of_evaluate hloaded.conforms horder options with
      ⟨⟨shader, hshader⟩, _⟩ | ⟨k, e, hfirst, hcompile⟩
    · exact Or.inl ⟨shader, by rw [hshader]⟩
    · obtain ⟨_, _, _, node, _, _, _, hnode, before, s, after, hsplit, _, hfault⟩ := hfirst
      have hs : s ∈ node.sockets := by
        rw [hsplit]
        exact List.mem_append_right _ List.mem_cons_self
      exact Or.inr ⟨e, by rw [hcompile], hloaded.authored_of_fault hnode hs hfault⟩

/-- A document whose output links to a node that gives a number where a colour is needed. -/
def greyed : Document where
  version := "1.0"
  metadata := {}
  nodes :=
    [⟨"out", "MaterialOutput", none, [("Surface", .link "grey")]⟩,
      ⟨"grey", "RGBToBW", none, [("Color", .value (.string "tint") none)]⟩]
  output := "out"
  options := none

/-- The document is loaded; that the types do not fit is found when it is compiled. -/
theorem compile_greyed :
    ∃ m, greyed.load.result = .ok m ∧
      (m.graph.compile {}).result = .error (.typeMismatch "out" "Surface" .vec3 .float) ∧
      greyed.Authored (.typeMismatch "out" "Surface" .vec3 .float) := by
  let m : Material := ⟨"", ⟨
    [(MaterialGraph.Node.new "out" .materialOutput).bind "Surface" (some (.connection 1)),
      (MaterialGraph.Node.new "grey" .rgbToBW).bind "Color" (some (.literal ⟨.vec3, "tint"⟩))],
    some 0⟩, {}⟩
  have hload : greyed.load.result = .ok m := rfl
  have hcompile : (m.graph.compile {}).result =
      .error (.typeMismatch "out" "Surface" .vec3 .float) := by
    cbv
  refine ⟨m, hload, hcompile, ?_⟩
  rcases compile_fails_as_authored greyed m hload {} with ⟨shader, hshader⟩ | ⟨e, he, hauthored⟩
  · rw [hcompile] at hshader
    cases hshader
  · rw [hcompile] at he
    rw [Except.error.inj he]
    exact hauthored

end MaterialGraph.Document
