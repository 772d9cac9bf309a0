import Mathlib
import MaterialGraph.Proofs.Order.Evaluate
import MaterialGraph.Proofs.Shader.Shape
import MaterialGraph.Proofs.Text.Lines

/-!
# Comments in a body

With comments every declaration of a body is announced by the name of its node.  This should add one
line in front of each declaration and nothing else (`Shader.Announces`), and it does so as long as
the names are of one line.  A name is not looked at before it is put behind the slashes, so the part
of it after a line feed is a line of its own, and no comment.

That there is no other way to see such a body as one with a comment line for each declaration
follows by counting line feeds (`Shader.count_unlines_flatMap`).
-/

namespace MaterialGraph

namespace Text

/-- A text without the carriage return at its end, if there is one. -/
def chomped (s : String) : String :=
  String.ofList (dropReturn s.toList.reverse).reverse

/-- What is in front of a text is kept, unless it ends with a carriage return. -/
lemma dropReturn_append {cs ds : List Char} (hds : dropReturn ds = ds) :
    dropReturn (cs ++ ds) = dropReturn cs ++ ds := by
  cases cs with
  | nil => exact hds
  | cons c cs =>
    by_cases hc : c = '\r'
    · subst hc
      rfl
    · have hkeep : ∀ es, dropReturn (c :: es) = c :: es := by
        intro es
        unfold dropReturn
        split
        · rename_i heq
          exact absurd (List.cons.inj heq).1 hc
        · rfl
      rw [List.cons_append, hkeep, hkeep, List.cons_append]

/-- The comment with a text has the text at its end. -/
lemma chomped_comment (s : String) : chomped ("// " ++ s) = "// " ++ chomped s := by
  have hslashes : dropReturn [' ', '/', '/'] = [' ', '/', '/'] := by decide
  have hreverse : ("// " ++ s).toList.reverse = s.toList.reverse ++ [' ', '/', '/'] := by simp
  unfold chomped
  rw [hreverse, dropReturn_append hslashes, ← String.toList_inj]
  simp

/-- Up to its only line feed a text has one line. -/
lemma linesFrom_append_feed_of_notMem {start cs : List Char} (hcs : '\n' ∉ cs) :
    linesFrom start (cs ++ ['\n']) = [(dropReturn (cs.reverse ++ start)).reverse] := by
  induction cs generalizing start with
  | nil => simp [linesFrom]
  | cons c cs ih =>
    rw [List.mem_cons, not_or] at hcs
    have hc : c ≠ '\n' := fun h => hcs.1 h.symm
    simp [linesFrom, hc, ih hcs.2]

/-- A text without line feeds is one line. -/
lemma lines_append_feed_of_notMem {s : String} (hs : '\n' ∉ s.toList) :
    lines (s ++ "\n") = [chomped s] := by
  have hsplit : (s ++ "\n").toList = s.toList ++ ['\n'] := by simp
  unfold lines
  rw [hsplit, linesFrom_append_feed_of_notMem hs, List.append_nil]
  rfl

end Text

/-- The statement with a comment is the statement without, after the line of the comment. -/
lemma Assignment.statement_true (a : Assignment) :
    a.statement true = "// " ++ a.label ++ "\n" ++ a.statement false := by
  simp [Assignment.statement, String.append_assoc]

namespace Shader

/-- One body is the other one with a comment line in front of the lines of each declaration: an
indent, two slashes and a blank, and one of the given texts. -/
structure Announces (indent : String) (plain commented : Shader) (texts : List String) : Prop where
  one : texts.length = plain.statements.length
  line : ∀ text ∈ texts, '\n' ∉ text.toList
  sources : ∃ last : List String,
    plain.source = Text.unlines (((texts.zip plain.statements).flatMap fun p =>
      Text.lines p.2).map (indent ++ ·) ++ last) ∧
    commented.source = Text.unlines (((texts.zip plain.statements).flatMap fun p =>
      ["// " ++ p.1] ++ Text.lines p.2).map (indent ++ ·) ++ last)

/-- Extra lines in front of blocks of lines add the line feeds of an indented line each. -/
lemma count_unlines_flatMap {α : Type} {as : List α} {indent : String} {last : List String}
    {extra own : α → List String} (hextra : ∀ a ∈ as, ∀ l ∈ extra a, '\n' ∉ l.toList)
    (hown : ∀ a ∈ as, ∀ l ∈ own a, '\n' ∉ l.toList) :
    (Text.unlines ((as.flatMap fun a => extra a ++ own a).map (indent ++ ·) ++ last)).toList.count
        '\n' =
      (Text.unlines ((as.flatMap own).map (indent ++ ·) ++ last)).toList.count '\n' +
        (as.map fun a => (extra a).length).sum * (indent.toList.count '\n' + 1) := by
  have hboth : ∀ l ∈ as.flatMap fun a => extra a ++ own a, '\n' ∉ l.toList := by
    intro l hl
    obtain ⟨a, ha, hl⟩ := List.mem_flatMap.mp hl
    exact (List.mem_append.mp hl).elim (hextra a ha l) (hown a ha l)
  have howns : ∀ l ∈ as.flatMap own, '\n' ∉ l.toList := by
    intro l hl
    obtain ⟨a, ha, hl⟩ := List.mem_flatMap.mp hl
    exact hown a ha l hl
  have hlength : (as.flatMap fun a => extra a ++ own a).length =
      (as.flatMap own).length + (as.map fun a => (extra a).length).sum := by
    simp only [List.length_flatMap, List.length_append, List.sum_map_add]
    omega
  rw [Text.unlines_append, Text.unlines_append, String.toList_append, String.toList_append,
    List.count_append, List.count_append, Text.count_unlines_indented hboth,
    Text.count_unlines_indented howns, hlength]
  ring

/-- Comment lines add one indented line for each declaration. -/
lemma Announces.count_source {indent : String} {plain commented : Shader} {texts : List String}
    (h : Announces indent plain commented texts) :
    commented.source.toList.count '\n' = plain.source.toList.count '\n' +
      plain.statements.length * (indent.toList.count '\n' + 1) := by
  obtain ⟨last, hplain, hcommented⟩ := h.sources
  have hline : ∀ p ∈ texts.zip plain.statements, ∀ l ∈ ["// " ++ p.1], '\n' ∉ l.toList := by
    intro p hp l hl
    obtain rfl := List.mem_singleton.mp hl
    have htext : '\n' ∉ p.1.toList := h.line p.1 (List.of_mem_zip hp).1
    simpa using htext
  rw [hplain, hcommented,
    count_unlines_flatMap hline fun _ _ _ hl => Text.feed_notMem_of_mem_lines hl]
  simp [h.one]

section Program

variable {program : List Assignment} {options : Options} {result : Symbol}

/-- The body with comments has the lines of the comments in front of those of the declarations. -/
lemma source_commented :
    (ofProgram { options with nodeComments := true } program result).source =
      Text.unlines ((program.flatMap fun a => Text.lines ("// " ++ a.label ++ "\n") ++
        Text.lines (a.statement false)).map (options.indent ++ ·) ++
        (options.result.line result.name).toList.map (options.indent ++ ·)) := by
  have hlines : ∀ a : Assignment, Text.lines (a.statement true) =
      Text.lines ("// " ++ a.label ++ "\n") ++ Text.lines (a.statement false) := by
    intro a
    rw [a.statement_true, Text.lines_append_feed]
  simp only [ofProgram, body, List.flatMap_map, hlines]

/-- The body without comments has the lines of the declarations only. -/
lemma source_plain :
    (ofProgram { options with nodeComments := false } program result).source =
      Text.unlines ((program.flatMap fun a => Text.lines (a.statement false)).map
        (options.indent ++ ·) ++
        (options.result.line result.name).toList.map (options.indent ++ ·)) := by
  simp only [ofProgram, body, List.flatMap_map]

/-- With labels of one line, the comments are the labels without a carriage return at the end. -/
lemma announces_of_notMem (hlabels : ∀ a ∈ program, '\n' ∉ a.label.toList) :
    Announces options.indent (ofProgram { options with nodeComments := false } program result)
      (ofProgram { options with nodeComments := true } program result)
      (program.map fun a => Text.chomped a.label) := by
  have hstatements : (ofProgram { options with nodeComments := false } program result).statements =
      program.map (·.statement false) := rfl
  have hcomment : ∀ a ∈ program, Text.lines ("// " ++ a.label ++ "\n") =
      ["// " ++ Text.chomped a.label] := by
    intro a ha
    have hfeed : '\n' ∉ ("// " ++ a.label).toList := by simpa using hlabels a ha
    rw [Text.lines_append_feed_of_notMem hfeed, Text.chomped_comment]
  refine ⟨by simp [hstatements], ?_,
    (options.result.line result.name).toList.map (options.indent ++ ·), ?_, ?_⟩
  · intro text htext
    obtain ⟨a, ha, rfl⟩ := List.mem_map.mp htext
    have hline : "// " ++ Text.chomped a.label ∈ Text.lines ("// " ++ a.label ++ "\n") := by
      simp [hcomment a ha]
    simpa using Text.feed_notMem_of_mem_lines hline
  · rw [source_plain, hstatements, List.zip_map', List.flatMap_map]
  · rw [source_commented, hstatements, List.zip_map', List.flatMap_map]
    congr 3
    exact List.flatMap_congr fun a ha => by rw [hcomment a ha]

/-- If there are comment lines for the declarations, every label is of one line: a further line
would add line feeds. -/
lemma Announces.feed_notMem {texts : List String}
    (h : Announces options.indent (ofProgram { options with nodeComments := false } program result)
      (ofProgram { options with nodeComments := true } program result) texts) :
    ∀ a ∈ program, '\n' ∉ a.label.toList := by
  have hcount := h.count_source
  have hslashes : ∀ s : String, ("// " ++ s).toList.count '\n' = s.toList.count '\n' := by
    simp
  rw [source_plain, source_commented, count_unlines_flatMap
    (fun _ _ _ hl => Text.feed_notMem_of_mem_lines hl)
    (fun _ _ _ hl => Text.feed_notMem_of_mem_lines hl)] at hcount
  -- as many comment lines as declarations, and at least one for each of them
  have hlines : (program.map fun a => a.label.toList.count '\n' + 1).sum = program.length := by
    have hmul := Nat.add_left_cancel hcount
    simp only [Text.length_lines_append_feed, hslashes] at hmul
    simpa [ofProgram] using Nat.eq_of_mul_eq_mul_right (Nat.succ_pos _) hmul
  rw [List.sum_map_add, List.map_const', List.sum_replicate, smul_eq_mul, Nat.mul_one] at hlines
  have hzero : (program.map fun a => a.label.toList.count '\n').sum = 0 := by omega
  intro a ha
  exact List.count_eq_zero.mp (List.sum_eq_zero_iff.mp hzero _ (List.mem_map_of_mem ha))

end Program

end Shader

namespace Graph

/-- The label of an assignment is the name of its node. -/
lemma Emits.label_eq {g : Graph} {table : SymbolTable} {ids : List NodeId}
    {program : List Assignment} (h : g.Emits table ids program) {a : Assignment}
    (ha : a ∈ program) : ∃ n, g.nodes[a.symbol.node]? = some n ∧ a.label = n.name := by
  obtain ⟨i, hi⟩ := List.mem_iff_getElem?.mp ha
  obtain ⟨seen, n, hassigned, -, -⟩ := h.exists_assigned hi
  exact ⟨n, hassigned.node, hassigned.label⟩

/-- A graph that compiles does so with comments too.  Each statement is then announced by the name
of its node, and the body is the one without comments and with a comment line in front of each
declaration just if no node that the output depends on has a line feed in its name. -/
theorem compile_comments_iff (g : Graph) (options : Options) (plain : Shader)
    (h : (g.compile { options with nodeComments := false }).result = .ok plain) :
    ∃ commented, (g.compile { options with nodeComments := true }).result = .ok commented ∧
      commented.statements = List.zipWith (fun b s => "// " ++ g.label b.1 ++ "\n" ++ s)
        plain.bindings plain.statements ∧
      ((∃ texts, Shader.Announces options.indent plain commented texts) ↔
        ∀ id n, g.Reachable id → g.nodes[id]? = some n → '\n' ∉ n.name.toList) := by
  obtain ⟨order, root, a, horder, hemits, -, -, -, rfl⟩ := exists_emits_of_compile h
  refine ⟨_, compile_of_compile h _, ?_, ?_⟩
  · simp only [Shader.ofProgram, List.zipWith_map_left, List.zipWith_map_right, List.zipWith_self]
    refine List.map_congr_left fun b hb => ?_
    obtain ⟨n, hn, hlabel⟩ := hemits.label_eq hb
    rw [b.statement_true, hlabel]
    simp [Graph.label, hn]
  · have hreachable : ∀ id, g.Reachable id ↔ ∃ b ∈ g.program, b.symbol.node = id := by
      intro id
      rw [← (dependencyOrder_of_evaluate horder).mem_iff, ← hemits.map_node, List.mem_map]
    constructor
    · rintro ⟨texts, htexts⟩ id n hid hn
      obtain ⟨b, hb, rfl⟩ := (hreachable id).mp hid
      obtain ⟨m, hm, hlabel⟩ := hemits.label_eq hb
      rw [hn] at hm
      rw [Option.some.inj hm, ← hlabel]
      exact htexts.feed_notMem b hb
    · intro hnames
      refine ⟨_, Shader.announces_of_notMem fun b hb => ?_⟩
      obtain ⟨n, hn, hlabel⟩ := hemits.label_eq hb
      rw [hlabel]
      exact hnames _ n ((hreachable _).mpr ⟨b, hb, rfl⟩) hn

/-- The names of the diamond are of one line, so its comments are comment lines. -/
theorem compile_comments_diamond :
    ∃ plain commented texts, (diamond.compile ⟨.returned, "    ", false⟩).result = .ok plain ∧
      (diamond.compile ⟨.returned, "    ", true⟩).result = .ok commented ∧
      Shader.Announces "    " plain commented texts := by
  have horder : diamond.evaluate = .ok [3, 1, 2, 0] := by cbv
  have hnone : (diamond.emit SymbolTable.empty.push [3, 1, 2, 0]).failure = none := by cbv
  obtain ⟨plain, hshader⟩ := exists_shader_of_failure_eq_none ⟨.returned, "    ", false⟩
    horder rfl (by decide) hnone
  have hplain : (diamond.compile ⟨.returned, "    ", false⟩).result = .ok plain := by
    rw [hshader]
  have hnames : (diamond.nodes.all fun n => '\n' ∉ n.name.toList) = true := by decide
  obtain ⟨commented, hcommented, -, hiff⟩ :=
    compile_comments_iff diamond ⟨.returned, "    ", false⟩ plain hplain
  obtain ⟨texts, htexts⟩ := hiff.mpr fun id n _ hn => by
    simpa using List.all_eq_true.mp hnames n (List.mem_of_getElem? hn)
  exact ⟨plain, commented, texts, hplain, hcommented, htexts⟩

/-- A graph of one node, whose name goes on in a second line. -/
def intruder : Graph :=
  ⟨[Node.new "glow\ndiscard;" (.math .add)], some 0⟩

/-- The second line of the name is a line of the body with comments, which is a statement now: no
texts make comment lines of it. -/
theorem comments_intruder :
    ∃ plain commented, (intruder.compile {}).result = .ok plain ∧
      (intruder.compile { nodeComments := true }).result = .ok commented ∧
      commented.source =
        "// glow\ndiscard;\nfloat float_0 = (0.5 + 0.5);\nreturn float_0;\n" ∧
      ∀ texts, ¬ Shader.Announces "" plain commented texts := by
  refine ⟨⟨"float float_0 = (0.5 + 0.5);\nreturn float_0;\n", ⟨.float, "float_0", 0⟩,
      ["float float_0 = (0.5 + 0.5);"], [(0, ⟨.float, "float_0", 0⟩)]⟩,
    ⟨"// glow\ndiscard;\nfloat float_0 = (0.5 + 0.5);\nreturn float_0;\n",
      ⟨.float, "float_0", 0⟩, ["// glow\ndiscard;\nfloat float_0 = (0.5 + 0.5);"],
      [(0, ⟨.float, "float_0", 0⟩)]⟩, by cbv, by cbv, rfl, fun texts htexts => ?_⟩
  exact absurd htexts.count_source (by decide)

end Graph

end MaterialGraph
