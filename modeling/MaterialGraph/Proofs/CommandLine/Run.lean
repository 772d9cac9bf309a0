import Mathlib
import MaterialGraph.CommandLine.Run
import MaterialGraph.Proofs.CommandLine.Arguments
import MaterialGraph.Proofs.Document.Writing
import MaterialGraph.Proofs.Shader.Wrapping

/-!
# What a run prints

A run goes through stages, each of which may end it: the arguments, the material, the options, the
shader, the fragment shader around it, the verdict on that, and its text in WGSL.  What has been
printed by then stays printed, but no stage comes after the one that prints the result.  So a run
that is ended has printed nothing there (`Job.FailsQuietly`), and one that is not prints what the
library makes of the files that the arguments name (`Job.Ends`).

`Compiles` and `Prints` say what that is, without stages; the verdict and the text in WGSL are those
of the surroundings.  Every stage is matched by one statement about when it succeeds.  The fragment
shader is the one stage that cannot end a run, since a run that needs one has made sure before that
the body returns its value.

Main statement: `run_all_or_nothing`.
-/

namespace MaterialGraph.CommandLine

/-- The options that are used: those in the given file, which replace those of the material as a
whole. -/
inductive Chosen (s : Surroundings) (own : Options) : Option String → Options → Prop where
  | own : Chosen s own none own
  | given {path text : String} {options : Options} (hfile : s.file path = .ok text)
      (hread : Options.read text = .ok options) : Chosen s own (some path) options

/-- What the library makes of the files that the arguments name: the material of the one, and its
shader with the options of the other. -/
structure Compiles (s : Surroundings) (a : Arguments) (m : Material) (options : Options)
    (shader : Shader) : Prop where
  loaded : ∃ path text d, a.material = some path ∧ s.file path = .ok text ∧
    Document.read text = .ok d ∧ d.load.result = .ok m
  chosen : Chosen s m.options a.options options
  compiled : (m.graph.compile options).result = .ok shader

/-- What is printed for a shader: its body, the fragment shader around it, or the text of that in
WGSL. -/
inductive Prints (s : Surroundings) (shader : Shader) : Emit → String → Prop where
  | body : Prints s shader .body shader.source
  | shader {source : String} (hsource : Shader.fragment shader.source shader.result = .ok source) :
      Prints s shader .shader source
  | wgsl {source text : String}
      (hsource : Shader.fragment shader.source shader.result = .ok source)
      (htext : s.wgsl source = .ok text) : Prints s shader .wgsl text

/-- Nothing is wrong with the fragment shader, if that was asked for. -/
def Passes (s : Surroundings) (a : Arguments) (shader : Shader) : Prop :=
  a.validate = true → ∃ source, Shader.fragment shader.source shader.result = .ok source ∧
    s.complaint source = none

variable {s : Surroundings} {a : Arguments}

/-! ### Stages -/

/-- A material is loaded just if its file can be read and holds a document that can be loaded. -/
lemma loadMaterial_eq_ok_iff {path : String} {m : Material} :
    loadMaterial s path = .ok m ↔ ∃ text d, s.file path = .ok text ∧ Document.read text = .ok d ∧
      d.load.result = .ok m := by
  unfold loadMaterial
  cases hfile : s.file path with
  | error reason => simp
  | ok text =>
    cases hread : Document.read text with
    | error e => simp [hread]
    | ok d =>
      cases hload : d.load.result with
      | error e => simp [hread, hload]
      | ok m' => simp [hread, hload]

/-- Options are chosen just if they are the material's own and no file is given, or those of the
file. -/
lemma chooseOptions_eq_ok_iff {own options : Options} {given : Option String} :
    chooseOptions s own given = .ok options ↔ Chosen s own given options := by
  cases given with
  | none =>
    constructor
    · intro h
      rw [← Except.ok.inj h]
      exact Chosen.own
    · rintro ⟨⟩
      rfl
  | some path =>
    constructor
    · intro h
      unfold chooseOptions at h
      cases hfile : s.file path with
      | error reason => simp [hfile] at h
      | ok text =>
        cases hread : Options.read text with
        | error e => simp [hfile, hread] at h
        | ok options' =>
          obtain rfl : options' = options := by simpa [hfile, hread] using h
          exact Chosen.given hfile hread
    · rintro (_ | ⟨hfile, hread⟩)
      simp [chooseOptions, hfile, hread]

/-- The verdict does not end a run just if none is asked for or there is no complaint. -/
lemma verdict_eq_ok_iff {name source : String} :
    a.verdict s name source = .ok () ↔ (a.validate = true → s.complaint source = none) := by
  unfold Arguments.verdict
  cases a.validate with
  | false => simp
  | true => cases s.complaint source <;> simp

/-- What is printed for a shader and its fragment shader. -/
lemma printed_eq_ok_iff {shader : Shader} {source text : String}
    (hsource : Shader.fragment shader.source shader.result = .ok source) :
    a.printed s shader source = .ok text ↔ Prints s shader a.emit text := by
  unfold Arguments.printed
  cases a.emit with
  | body =>
    constructor
    · intro h
      rw [← Except.ok.inj h]
      exact Prints.body
    · rintro ⟨⟩
      rfl
  | shader =>
    constructor
    · intro h
      rw [← Except.ok.inj h]
      exact Prints.shader hsource
    · rintro (_ | hsource' | _)
      rw [hsource] at hsource'
      rw [Except.ok.inj hsource']
  | wgsl =>
    constructor
    · intro h
      cases hwgsl : s.wgsl source with
      | error reason => simp [hwgsl] at h
      | ok text' =>
        obtain rfl : text' = text := by simpa [hwgsl] using h
        exact Prints.wgsl hsource hwgsl
    · rintro (_ | _ | ⟨hsource', htext⟩)
      rw [hsource] at hsource'
      rw [Except.ok.inj hsource', htext]

/-- A run that needs no fragment shader prints the body. -/
lemma emit_eq_body_of_needsShader_eq_false (h : a.needsShader = false) :
    a.validate = false ∧ a.emit = .body := by
  simpa [Arguments.needsShader] using h

/-- The path of the material is found just if one is given. -/
lemma materialPath_eq_ok_iff {path : String} :
    a.materialPath = .ok path ↔ a.material = some path := by
  unfold Arguments.materialPath
  cases a.material <;> simp

/-- Options are permitted just if they return the value that a needed fragment shader is wrapped
around. -/
lemma permits_eq_ok_iff {options : Options} :
    a.permits options = .ok () ↔ (a.needsShader = true → options.result = .returned) := by
  unfold Arguments.permits
  cases a.needsShader with
  | false => simp
  | true => by_cases hreturned : options.result = .returned <;> simp [hreturned]

/-! ### Jobs -/

namespace Job

variable {α : Type} {c : Console} {out : String}

/-- The job does not fail, and the given text is on the standard output after it. -/
def Ends (x : Job Unit) (c : Console) (out : String) : Prop :=
  ∃ c', x.run c = .ok () c' ∧ c'.stdout = out

/-- The job fails with no other errors than those given, and whenever it fails, it has printed
nothing to the standard output. -/
def FailsQuietly (errors : RunError → Prop) (x : Job Unit) : Prop :=
  ∀ c e c', x.run c = .error e c' → c'.stdout = c.stdout ∧ errors e

/-- A job that goes on with a result goes on if there is one. -/
lemma run_ofExcept_ok_bind (a : α) (rest : α → Job Unit) (c : Console) :
    (ofExcept (.ok a) >>= rest).run c = (rest a).run c :=
  rfl

/-- A job that goes on with a result stops if there is none, with what has been printed. -/
lemma run_ofExcept_error_bind (e : RunError) (rest : α → Job Unit) (c : Console) :
    (ofExcept (.error e) >>= rest).run c = .error e c :=
  rfl

/-- A job that goes on with a result does not fail just if there is one and the rest does not. -/
lemma ends_ofExcept_bind {x : Except RunError α} {rest : α → Job Unit} :
    (ofExcept x >>= rest).Ends c out ↔ ∃ a, x = .ok a ∧ (rest a).Ends c out := by
  cases x with
  | error e => simp only [Ends, run_ofExcept_error_bind, reduceCtorEq, false_and, exists_false]
  | ok a => simp only [Ends, run_ofExcept_ok_bind, Except.ok.injEq, exists_eq_left']

/-- A note changes nothing on the standard output. -/
lemma ends_note_bind {text : String} {rest : Job Unit} :
    (note text >>= fun _ => rest).Ends c out ↔
      rest.Ends { c with stderr := c.stderr ++ text } out :=
  Iff.rfl

/-- Printing a text puts it after what is there. -/
lemma ends_print {text : String} : (print text).Ends c out ↔ c.stdout ++ text = out := by
  have hrun : (print text).run c = .ok () { c with stdout := c.stdout ++ text } := rfl
  simp [Ends, hrun]

variable {errors : RunError → Prop}

/-- A result is asked for before anything is printed. -/
lemma failsQuietly_ofExcept_bind {x : Except RunError α} {rest : α → Job Unit}
    (herror : ∀ e, x = .error e → errors e)
    (hrest : ∀ a, x = .ok a → (rest a).FailsQuietly errors) :
    (ofExcept x >>= rest).FailsQuietly errors := by
  intro c e c' h
  cases x with
  | error e' =>
    rw [run_ofExcept_error_bind] at h
    cases h
    exact ⟨rfl, herror e rfl⟩
  | ok a =>
    rw [run_ofExcept_ok_bind] at h
    exact hrest a rfl c e c' h

/-- A note may come before an error. -/
lemma failsQuietly_note_bind {text : String} {rest : Job Unit} (hrest : rest.FailsQuietly errors) :
    (note text >>= fun _ => rest).FailsQuietly errors :=
  fun c e c' h => hrest { c with stderr := c.stderr ++ text } e c' h

/-- Printing does not fail. -/
lemma failsQuietly_print (text : String) : (print text).FailsQuietly errors :=
  fun _ _ _ h => by cases h

end Job

/-! ### Success -/

/-- What is printed for a shader around which a fragment shader can be wrapped. -/
lemma ends_printFragment_iff {path name source : String} {shader : Shader} {c : Console}
    {out : String} (hsource : Shader.fragment shader.source shader.result = .ok source) :
    (printFragment a s path name shader).Ends c out ↔
      Passes s a shader ∧ ∃ text, Prints s shader a.emit text ∧ c.stdout ++ text = out := by
  have hpasses : Passes s a shader ↔ a.verdict s name source = .ok () := by
    rw [verdict_eq_ok_iff]
    simp [Passes, hsource]
  unfold printFragment
  simp only [Job.ends_ofExcept_bind, Job.ends_note_bind, Job.ends_print, mapError_eq_ok_iff,
    hsource, Except.ok.injEq, exists_eq_left', printed_eq_ok_iff hsource, hpasses]
  exact ⟨fun ⟨_, h⟩ => h, fun h => ⟨(), h⟩⟩

/-- What is printed for a material, if it is compiled with options that return its value or without
the need for a fragment shader. -/
lemma ends_printMaterial_iff {path : String} {m : Material} {options : Options} {c : Console}
    {out : String} (hreturned : a.needsShader = true → options.result = .returned) :
    (printMaterial a s path m options).Ends c out ↔
      ∃ shader, (m.graph.compile options).result = .ok shader ∧ Passes s a shader ∧
        ∃ text, Prints s shader a.emit text ∧ c.stdout ++ text = out := by
  unfold printMaterial
  rw [Job.ends_ofExcept_bind]
  refine exists_congr fun shader => ?_
  rw [mapError_eq_ok_iff]
  refine and_congr_right fun hcompile => ?_
  cases hneeds : a.needsShader with
  | false =>
    obtain ⟨hvalidate, hemit⟩ := emit_eq_body_of_needsShader_eq_false hneeds
    have hpasses : Passes s a shader := by simp [Passes, hvalidate]
    rw [if_neg Bool.false_ne_true, Job.ends_print, hemit]
    constructor
    · intro hout
      exact ⟨hpasses, shader.source, Prints.body, hout⟩
    · rintro ⟨_, _, ⟨⟩, hout⟩
      exact hout
  | true =>
    obtain ⟨source, hsource⟩ := Graph.exists_fragment_of_returned hcompile (hreturned hneeds)
    rw [if_pos rfl, ends_printFragment_iff hsource]

/-- A run does not fail just if every stage up to the options does not and the material can be
printed. -/
lemma ends_perform_iff {args : List String} {c : Console} {out : String} :
    (perform s args).Ends c out ↔
      ∃ a path m options, Arguments.parse args = .ok a ∧ a.material = some path ∧
        loadMaterial s path = .ok m ∧ chooseOptions s m.options a.options = .ok options ∧
        (a.needsShader = true → options.result = .returned) ∧
        (printMaterial a s path m options).Ends c out := by
  unfold perform
  simp only [Job.ends_ofExcept_bind, mapError_eq_ok_iff, materialPath_eq_ok_iff]
  constructor
  · rintro ⟨a, hparse, path, hpath, m, hload, options, hchoose, _, hpermits, hends⟩
    exact ⟨a, path, m, options, hparse, hpath, hload, hchoose, permits_eq_ok_iff.mp hpermits, hends⟩
  · rintro ⟨a, path, m, options, hparse, hpath, hload, hchoose, hreturned, hends⟩
    exact ⟨a, hparse, path, hpath, m, hload, options, hchoose, (), permits_eq_ok_iff.mpr hreturned,
      hends⟩

/-- The exit code is zero just if the run does not fail. -/
lemma run_eq_iff {args : List String} {text : String} :
    (run s args).code = 0 ∧ (run s args).stdout = text ↔ (perform s args).Ends {} text := by
  unfold run Job.Ends
  cases (perform s args).run {} <;> simp

/-! ### Failure -/

/-- The error of a fragment shader that could not be made. -/
def RunError.isFragment : RunError → Bool
  | fragment _ => true
  | _ => false

section Errors

variable {e : RunError}

/-- A missing path has nothing to do with a fragment shader. -/
lemma isFragment_of_materialPath (h : a.materialPath = .error e) : e.isFragment = false := by
  unfold Arguments.materialPath at h
  split at h
  · cases h
    rfl
  · cases h

/-- Options are refused before a fragment shader is wrapped. -/
lemma isFragment_of_permits {options : Options} (h : a.permits options = .error e) :
    e.isFragment = false := by
  unfold Arguments.permits at h
  split at h
  · cases h
    rfl
  · cases h

/-- Loading a material does not wrap a fragment shader. -/
lemma isFragment_of_loadMaterial {path : String} (h : loadMaterial s path = .error e) :
    e.isFragment = false := by
  unfold loadMaterial at h
  split at h
  · cases h
    rfl
  · split at h
    · cases h
      rfl
    · split at h
      · cases h
        rfl
      · cases h

/-- Choosing options does not wrap a fragment shader. -/
lemma isFragment_of_chooseOptions {own : Options} {given : Option String}
    (h : chooseOptions s own given = .error e) : e.isFragment = false := by
  unfold chooseOptions at h
  split at h
  · cases h
  · split at h
    · cases h
      rfl
    · split at h
      · cases h
        rfl
      · cases h

/-- The verdict on a fragment shader is not about how it is wrapped. -/
lemma isFragment_of_verdict {name source : String} (h : a.verdict s name source = .error e) :
    e.isFragment = false := by
  unfold Arguments.verdict at h
  split at h
  · split at h
    · cases h
      rfl
    · cases h
  · cases h

/-- Neither is its text in WGSL. -/
lemma isFragment_of_printed {shader : Shader} {source : String}
    (h : a.printed s shader source = .error e) : e.isFragment = false := by
  unfold Arguments.printed at h
  split at h
  · cases h
  · cases h
  · split at h
    · cases h
    · cases h
      rfl

/-- A fragment shader that can be made is printed as a whole or not at all. -/
lemma failsQuietly_printFragment {path name source : String} {shader : Shader}
    (hsource : Shader.fragment shader.source shader.result = .ok source) :
    (printFragment a s path name shader).FailsQuietly fun e => e.isFragment = false := by
  unfold printFragment
  refine Job.failsQuietly_ofExcept_bind (fun e h => ?_) fun source' _ => ?_
  · rw [hsource] at h
    cases h
  · refine Job.failsQuietly_ofExcept_bind (fun e h => isFragment_of_verdict h) fun _ _ => ?_
    apply Job.failsQuietly_note_bind
    exact Job.failsQuietly_ofExcept_bind (fun e h => isFragment_of_printed h) fun text _ =>
      Job.failsQuietly_print text

/-- A material is printed as a whole or not at all. -/
lemma failsQuietly_printMaterial {path : String} {m : Material} {options : Options}
    (hreturned : a.needsShader = true → options.result = .returned) :
    (printMaterial a s path m options).FailsQuietly fun e => e.isFragment = false := by
  unfold printMaterial
  refine Job.failsQuietly_ofExcept_bind (fun e h => ?_) fun shader h => ?_
  · obtain ⟨e', _, rfl⟩ := mapError_eq_error_iff.mp h
    rfl
  · split
    · rename_i hneeds
      obtain ⟨source, hsource⟩ := Graph.exists_fragment_of_returned
        (mapError_eq_ok_iff.mp h) (hreturned hneeds)
      exact failsQuietly_printFragment hsource
    · exact Job.failsQuietly_print shader.source

/-- A run that fails has printed nothing, at whichever stage, and that stage is not the one of the
fragment shader. -/
lemma failsQuietly_perform (s : Surroundings) (args : List String) :
    (perform s args).FailsQuietly fun e => e.isFragment = false := by
  unfold perform
  refine Job.failsQuietly_ofExcept_bind (fun e h => ?_) fun a _ => ?_
  · obtain ⟨e', _, rfl⟩ := mapError_eq_error_iff.mp h
    rfl
  refine Job.failsQuietly_ofExcept_bind (fun e h => isFragment_of_materialPath h) fun path _ => ?_
  refine Job.failsQuietly_ofExcept_bind (fun e h => isFragment_of_loadMaterial h) fun m _ => ?_
  refine Job.failsQuietly_ofExcept_bind (fun e h => isFragment_of_chooseOptions h)
    fun options _ => ?_
  refine Job.failsQuietly_ofExcept_bind (fun e h => isFragment_of_permits h) fun _ hpermits => ?_
  exact failsQuietly_printMaterial (permits_eq_ok_iff.mp hpermits)

end Errors

/-- A run prints all or nothing.  If it fails, nothing is printed.  It succeeds with a text just if
its arguments fall into groups, the files that they name compile, a needed fragment shader is
wrapped around a body that returns its value and passes the verdict if one is asked for, and the
text is what is to be printed for the shader.  The fragment shader that is needed then can always be
made, so that no run ends for the want of it. -/
theorem run_all_or_nothing (s : Surroundings) (args : List String) :
    ((run s args).code ≠ 0 → (run s args).code = 1 ∧ (run s args).stdout = "") ∧
      (∀ text, (run s args).code = 0 ∧ (run s args).stdout = text ↔
        ∃ groups m options shader, groups.flatMap Group.words = args ∧
          Compiles s (Group.asked groups) m options shader ∧
          ((Group.asked groups).needsShader = true → options.result = .returned) ∧
          Passes s (Group.asked groups) shader ∧
          Prints s shader (Group.asked groups).emit text) ∧
      (∀ groups m options shader, groups.flatMap Group.words = args →
        Compiles s (Group.asked groups) m options shader →
        (Group.asked groups).needsShader = true → options.result = .returned →
        ∃ source, Shader.fragment shader.source shader.result = .ok source) ∧
      ∀ e c, (perform s args).run {} ≠ .error (.fragment e) c := by
  have hquiet := failsQuietly_perform s args {}
  refine ⟨?_, fun text => ?_, ?_, ?_⟩
  · unfold run
    cases hrun : (perform s args).run {} with
    | ok _ c => exact fun hcode => absurd rfl hcode
    | error e c => exact fun _ => ⟨rfl, (hquiet e c hrun).1⟩
  · rw [run_eq_iff, ends_perform_iff]
    constructor
    · rintro ⟨a, path, m, options, hparse, hpath, hload, hchoose, hreturned, hends⟩
      obtain ⟨groups, hgroups, rfl⟩ := Arguments.parse_eq_ok_iff.mp hparse
      obtain ⟨file, d, hfile, hread, hmaterial⟩ := loadMaterial_eq_ok_iff.mp hload
      obtain ⟨shader, hshader, hpasses, printed, hprints, hout⟩ :=
        (ends_printMaterial_iff hreturned).mp hends
      obtain rfl : printed = text := String.empty_append.symm.trans hout
      exact ⟨groups, m, options, shader, hgroups,
        ⟨⟨path, file, d, hpath, hfile, hread, hmaterial⟩, chooseOptions_eq_ok_iff.mp hchoose,
          hshader⟩, hreturned, hpasses, hprints⟩
    · rintro ⟨groups, m, options, shader, hgroups, hcompiles, hreturned, hpasses, hprints⟩
      obtain ⟨path, file, d, hpath, hfile, hread, hmaterial⟩ := hcompiles.loaded
      exact ⟨Group.asked groups, path, m, options,
        Arguments.parse_eq_ok_iff.mpr ⟨groups, hgroups, rfl⟩, hpath,
        loadMaterial_eq_ok_iff.mpr ⟨file, d, hfile, hread, hmaterial⟩,
        chooseOptions_eq_ok_iff.mpr hcompiles.chosen, hreturned,
        (ends_printMaterial_iff hreturned).mpr
          ⟨shader, hcompiles.compiled, hpasses, text, hprints, String.empty_append⟩⟩
  · intro groups m options shader _ hcompiles _ hreturned
    exact Graph.exists_fragment_of_returned hcompiles.compiled hreturned
  · intro e c hrun
    have hnot : (RunError.fragment e).isFragment = false := (hquiet _ _ hrun).2
    cases hnot

/-- A document whose own options do not hand over the value. -/
def muted : Document where
  version := "1.0"
  metadata := { name := "muted" }
  nodes := [⟨"out", "MaterialOutput", none, [("Surface", .link "hue")]⟩, ⟨"hue", "HSV", none, []⟩]
  output := "out"
  options := some { result := .omitted }

/-- Two files, one with that document and one with the standard options. -/
def desk : Surroundings where
  file path :=
    if path = "muted.json" then .ok muted.text
    else if path = "standard.json" then .ok (Options.toJson {}).text
    else .error "no such file"
  complaint _ := none
  wgsl source := .ok ("// translated\n" ++ source)

/-- The last of several flags counts, the options in the file replace those of the document, and
the text in WGSL of the fragment shader is printed. -/
theorem run_all_or_nothing_desk :
    ∃ m shader source exit, muted.load.result = .ok m ∧ m.options.result = .omitted ∧
      (m.graph.compile {}).result = .ok shader ∧
      Shader.fragment shader.source shader.result = .ok source ∧
      run desk ["--material", "absent.json", "--wgsl", "--shader", "--validate", "--options",
        "standard.json", "--material", "muted.json", "--wgsl"] = exit ∧
      exit.code = 0 ∧ exit.stdout = "// translated\n" ++ source := by
  let m : Material := ⟨"muted", ⟨
    [(Node.new "out" .materialOutput).bind "Surface" (some (.connection 1)), .new "hue" .hsv],
    some 0⟩, { result := .omitted }⟩
  let groups : List Group := [.material "absent.json", .wgsl, .shader, .validate,
    .options "standard.json", .material "muted.json", .wgsl]
  have hload : muted.load.result = .ok m := rfl
  have hread : Document.read muted.text = .ok muted := by
    have hnumbers : muted.toJson.numbers = [] := rfl
    refine Document.read_text ?_ (by simp [hnumbers])
    simp [Document.WellFormed, Document.Node.WellFormed, Document.InputsWellFormed,
      Document.Input.WellFormed, muted, Json.Sorted]
  have horder : m.graph.evaluate = .ok [1, 0] := by cbv
  have hnone : (m.graph.emit SymbolTable.empty.push [1, 0]).failure = none := by cbv
  obtain ⟨shader, hcompile⟩ :=
    Graph.exists_shader_of_failure_eq_none {} horder rfl (by decide) hnone
  have hshader : (m.graph.compile {}).result = .ok shader := by rw [hcompile]
  have hcompiles : Compiles desk (Group.asked groups) m {} shader :=
    ⟨⟨"muted.json", muted.text, muted, rfl, rfl, hread, hload⟩,
      Chosen.given rfl (Options.read_text {}), hshader⟩
  obtain ⟨-, hprints, hfragment, -⟩ := run_all_or_nothing desk (groups.flatMap Group.words)
  obtain ⟨source, hsource⟩ := hfragment groups m {} shader rfl hcompiles rfl rfl
  have hrun := (hprints ("// translated\n" ++ source)).mpr ⟨groups, m, {}, shader, rfl, hcompiles,
    fun _ => rfl, fun _ => ⟨source, hsource, rfl⟩, Prints.wgsl hsource rfl⟩
  exact ⟨m, shader, source, _, hload, rfl, hshader, hsource, rfl, hrun⟩

end MaterialGraph.CommandLine
