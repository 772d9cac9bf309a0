import Mathlib.Data.List.Basic
import MaterialGraph.Kind.Formula
import MaterialGraph.Proofs.Formula.Reading

/-!
# The operations of kinds

`Kind.operation` says as a tree what a kind computes from the trees of its inputs.  Main statement:
`Kind.generate_reads_operation` says that the text a node generates is a text of that tree, which
can stand anywhere in another expression, however the texts of the inputs are written.
-/

namespace MaterialGraph

open Expression

namespace Expression

instance : Add Expression := ⟨infixed .add⟩
instance : Sub Expression := ⟨infixed .subtract⟩
instance : Mul Expression := ⟨infixed .multiply⟩
instance : Div Expression := ⟨infixed .divide⟩

/-- A vector with three equal components. -/
def splat (component : Expression) : Expression :=
  call "vec3" [component]

end Expression

namespace Kind

/-- What a kind computes from its inputs, which are in the order of its sockets. -/
def operation : Kind → List Expression → Option Expression
  | gamma .linearToSRGB, [color] => some (call "pow" [color, splat (number "1.0" / number "2.2")])
  | gamma .srgbToLinear, [color] => some (call "pow" [color, splat (number "2.2")])
  | hsv, [hue, saturation, value, fac, color] =>
    let converted := call "rgb2hsv" [color]
    let shifted := call "fract" [member converted "x" + hue + number "0.5"]
    let scaled := call "clamp" [member converted "y" * saturation, number "0.0", number "1.0"]
    some (call "mix"
      [color, call "hsv2rgb" [call "vec3" [shifted, scaled, member converted "z" * value]], fac])
  | invert, [fac, color] => some (call "mix" [color, splat (number "1.0") - color, fac])
  | brightContrast, [color, bright, contrast] =>
    some (call "max"
      [(number "1.0" + contrast) * color + splat (bright - contrast * number "0.5"),
        splat (number "0.0")])
  | lightFalloff .quadratic, [distance] => some (number "1.0" / (distance * distance))
  | lightFalloff .linear, [distance] => some (number "1.0" / distance)
  | lightFalloff .constant, [_] => some (number "1.0")
  | rgbCurves, [fac, color, curve] =>
    let curved (channel : String) := member (call "texture" [curve, member color channel]) channel
    some (call "mix" [color, call "vec3" [curved "r", curved "g", curved "b"], fac])
  | mix .mix, [fac, first, second] => some (call "mix" [first, second, fac])
  | mix .add, [_, first, second] => some (first + second)
  | mix .multiply, [_, first, second] => some (first * second)
  | mix .screen, [_, first, second] =>
    let white := splat (number "1.0")
    some (white - (white - first) * (white - second))
  | mix .subtract, [_, first, second] => some (first - second)
  | clamp .minMax, [value, low, high] => some (call "clamp" [value, low, high])
  | clamp .minOnly, [value, low, _] => some (call "max" [value, low])
  | clamp .maxOnly, [value, _, high] => some (call "min" [value, high])
  | colorRamp, [fac, first, second, low, high] =>
    some (call "mix" [first, second,
      (call "clamp" [fac, low, high] - low) / call "max" [high - low, number "0.00001"]])
  | combineColor, [red, green, blue] => some (call "vec3" [red, green, blue])
  | math .add, [first, second] => some (first + second)
  | math .subtract, [first, second] => some (first - second)
  | math .multiply, [first, second] => some (first * second)
  | math .divide, [first, second] =>
    some (conditional (infixed .equal second (number "0.0")) (number "0.0") (first / second))
  | math .power, [first, second] => some (call "pow" [first, second])
  | math .modulo, [first, second] => some (call "mod" [first, second])
  | math .minimum, [first, second] => some (call "min" [first, second])
  | math .maximum, [first, second] => some (call "max" [first, second])
  | rgbToBW, [color] =>
    some (call "dot" [color, call "vec3" [number "0.2126", number "0.7152", number "0.0722"]])
  | separateColor .red, [color] => some (member color "r")
  | separateColor .green, [color] => some (member color "g")
  | separateColor .blue, [color] => some (member color "b")
  | vectorMath .add, [first, second] => some (first + second)
  | vectorMath .subtract, [first, second] => some (first - second)
  | vectorMath .crossProduct, [first, second] => some (call "cross" [first, second])
  | vectorMath .dotProduct, [first, second] => some (splat (call "dot" [first, second]))
  | vectorMath .normalize, [first, _] => some (call "normalize" [first])
  | diffuseShader, [color, normal, direction] =>
    some (call "LambertianBRDF" [normal, direction, color])
  | emission, [color, strength] => some (color * strength)
  | materialOutput, [surface, alpha] => some (call "vec4" [surface, alpha])
  | _, _ => none

/-- The tree that a list of trees, one for each socket in order, gives to a socket. -/
def treeOf (k : Kind) (trees : List Expression) (socket : String) : Expression :=
  (((k.sockets.map SocketSpec.name).zip trees).lookup socket).getD (.name "")

/-- The operation of a kind is its formula filled with trees. -/
lemma operation_eq (k : Kind) {trees : List Expression} (h : trees.length = k.sockets.length) :
    k.operation trees = some (k.formula.tree (k.treeOf trees)) := by
  cases k with
  | gamma m | lightFalloff m | separateColor m =>
    obtain ⟨a, rfl⟩ := List.length_eq_one_iff.mp h
    cases m <;> rfl
  | rgbToBW =>
    obtain ⟨a, rfl⟩ := List.length_eq_one_iff.mp h
    rfl
  | math m | vectorMath m =>
    obtain ⟨a, b, rfl⟩ := List.length_eq_two.mp h
    cases m <;> rfl
  | invert | emission | materialOutput =>
    obtain ⟨a, b, rfl⟩ := List.length_eq_two.mp h
    rfl
  | mix m | clamp m =>
    obtain ⟨a, b, c, rfl⟩ := List.length_eq_three.mp h
    cases m <;> rfl
  | brightContrast | rgbCurves | combineColor | diffuseShader =>
    obtain ⟨a, b, c, rfl⟩ := List.length_eq_three.mp h
    rfl
  | hsv | colorRamp =>
    match trees, h with
    | [a, b, c, d, e], _ => rfl

/-- Every formula can be written. -/
lemma isWritable_formula (k : Kind) :
    k.formula.isWritable (k.sockets.map SocketSpec.name) = true := by
  cases k with
  | gamma m | lightFalloff m | separateColor m | math m | vectorMath m | mix m | clamp m =>
    cases m <;> decide
  | _ => decide

/-- Only the curves put selectors on an input as it stands. -/
lemma selected_formula (k : Kind) :
    ∀ socket ∈ k.formula.selected, k = .rgbCurves ∧ socket = "Color" := by
  cases k with
  | gamma m | lightFalloff m | separateColor m | math m | vectorMath m | mix m | clamp m =>
    cases m <;> decide
  | _ => decide

/-- Inputs that are texts of trees give every socket a text of its tree. -/
lemma reads_inputOf {k : Kind} {inputs : List String} {trees : List Expression}
    (hlength : inputs.length = k.sockets.length)
    (htrees : List.Forall₂ (Reads .loose) inputs trees) :
    ∀ socket ∈ k.sockets.map SocketSpec.name,
      Reads .loose (k.inputOf inputs socket) (k.treeOf trees socket) := by
  unfold inputOf treeOf
  have hnames : inputs.length = (k.sockets.map SocketSpec.name).length := by
    rw [hlength, List.length_map]
  clear hlength
  generalize k.sockets.map SocketSpec.name = names at hnames
  induction htrees generalizing names with
  | nil =>
    rw [List.length_nil, eq_comm, List.length_eq_zero_iff] at hnames
    simp [hnames]
  | @cons s e inputs trees hread _ ih =>
    cases names with
    | nil => cases hnames
    | cons name names =>
      intro socket hsocket
      simp only [List.zip_cons_cons, List.lookup_cons]
      by_cases hname : socket = name
      · simpa [hname] using hread
      · rw [beq_eq_false_iff_ne.mpr hname]
        exact ih names (by simpa using hnames) socket (by simpa [hname] using hsocket)

/-- What a node generates from texts of trees is a text of its formula filled with the trees. -/
lemma reads_spliced {k : Kind} {inputs : List String} {trees : List Expression}
    (hlength : inputs.length = k.sockets.length)
    (htrees : List.Forall₂ (Reads .loose) inputs trees)
    (hcolor : k = .rgbCurves → ¬ IsBareNumber (k.inputOf inputs "Color")) :
    Reads .tight (k.formula.spliced (k.inputOf inputs)) (k.formula.tree (k.treeOf trees)) := by
  refine Formula.reads_bracketed Formula.tight
    (Formula.reads_text (reads_inputOf hlength htrees) k.formula k.isWritable_formula ?_)
  intro socket hsocket
  obtain ⟨hk, rfl⟩ := k.selected_formula socket hsocket
  exact hcolor hk

/-- The expression that a node generates keeps the grouping of its inputs: whatever texts of
expressions the inputs are, it is a text of the operation of the kind on these expressions, and one
that can stand anywhere.  Where a selector is put on an input, the input must not be a bare
number. -/
theorem generate_reads_operation (k : Kind) (inputs : List String) (trees : List Expression)
    (hlength : inputs.length = k.sockets.length)
    (htrees : List.Forall₂ (Reads .loose) inputs trees)
    (hcolor : k = .rgbCurves → ¬ IsBareNumber (k.inputOf inputs "Color")) :
    ∃ code tree, k.generate inputs = .ok code ∧ k.operation trees = some tree ∧
      Reads .tight code tree ∧ Expression.read code = some tree := by
  have htight := reads_spliced hlength htrees hcolor
  refine ⟨_, _, by rw [generate, if_pos hlength], ?_, htight, ?_⟩
  · exact k.operation_eq (htrees.length_eq.symm.trans hlength)
  · exact read_eq_some_iff.mpr htight.loose_of_tight

/-- Curves with a factor, a colour and a texture that are all written loosely. -/
theorem generate_reads_operation_rgbCurves :
    ∃ fac color curve, Expression.read "x + 1.0" = some fac ∧
      Expression.read " a == b ? a : -b " = some color ∧
      Expression.read "curves [0]" = some curve ∧
      ∃ code tree, rgbCurves.generate ["x + 1.0", " a == b ? a : -b ", "curves [0]"] = .ok code ∧
        rgbCurves.operation [fac, color, curve] = some tree ∧ Reads .tight code tree ∧
        Expression.read code = some tree := by
  refine ⟨_, _, _, rfl, rfl, rfl, ?_⟩
  refine generate_reads_operation rgbCurves _ _ rfl ?_ fun _ => ?_
  · exact .cons (read_eq_some_iff.mp rfl) (.cons (read_eq_some_iff.mp rfl)
      (.cons (read_eq_some_iff.mp rfl) .nil))
  · exact (read_eq_some_iff.mp rfl : Reads .loose " a == b ? a : -b " _).not_isBareNumber
      fun n h => nomatch h

end Kind

end MaterialGraph
