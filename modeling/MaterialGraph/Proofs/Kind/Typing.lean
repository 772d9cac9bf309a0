import MaterialGraph.Proofs.Expression.Typing
import MaterialGraph.Proofs.Kind.Naming
import MaterialGraph.Proofs.Kind.Operation

/-!
# Types of operations

The operation of a kind on expressions of the types of its sockets has the type of its output.  The
proof gives one typing derivation for each kind and mode.  The literals that new sockets hold are
expressions of the types of the sockets.
-/

namespace MaterialGraph

open Expression Context

/-- The type of expressions that stand for values of a type. -/
def ValueType.dataType : ValueType → DataType
  | float => .float
  | vec2 => .vector .float 2
  | vec3 => .vec3
  | vec4 => .vector .float 4
  | sampler1D => .sampler1D
  | sampler2D => .sampler2D

/-- A literal is an expression of the type that it is declared to have. -/
def Literal.WellTyped (Γ : Context) (l : Literal) : Prop :=
  ∃ e, Reads .loose l.text e ∧ Γ.HasType e l.type.dataType

namespace Kind

variable {Γ : Context}

lemma hasType_zero : Γ.HasType (number "0.0") .float := .float (by decide)

lemma hasType_half : Γ.HasType (number "0.5") .float := .float (by decide)

lemma hasType_one : Γ.HasType (number "1.0") .float := .float (by decide)

section Derivations

variable (hΓ : Γ.Standard)

include hΓ

/-- A number three times over is a vector. -/
lemma hasType_splat {e : Expression} (he : Γ.HasType e .float) : Γ.HasType (splat e) .vec3 :=
  .call hΓ (.cons he .nil) rfl

/-- White minus a colour. -/
lemma hasType_inverse {e : Expression} (he : Γ.HasType e .vec3) :
    Γ.HasType (splat (number "1.0") - e) .vec3 :=
  .infixed (hasType_splat hΓ hasType_one) he rfl

/-- A change of hue, saturation and value makes a colour of a colour. -/
lemma hasType_hsv {hue saturation value fac color : Expression} (hhue : Γ.HasType hue .float)
    (hsaturation : Γ.HasType saturation .float) (hvalue : Γ.HasType value .float)
    (hfac : Γ.HasType fac .float) (hcolor : Γ.HasType color .vec3) :
    ∃ tree, hsv.operation [hue, saturation, value, fac, color] = some tree ∧
      Γ.HasType tree .vec3 := by
  have hcomponent (selector : String)
      (hselector : DataType.vec3.selected? selector.toList = some .float) :
      Γ.HasType (member (call "rgb2hsv" [color]) selector) .float :=
    .member (.call hΓ (.cons hcolor .nil) rfl) hselector
  have hsum : Γ.HasType (member (call "rgb2hsv" [color]) "x" + hue) .float :=
    .infixed (hcomponent "x" (by decide)) hhue rfl
  have hshifted : Γ.HasType
      (call "fract" [member (call "rgb2hsv" [color]) "x" + hue + number "0.5"]) .float :=
    .call hΓ (.cons (.infixed hsum hasType_half rfl) .nil) rfl
  have hproduct : Γ.HasType (member (call "rgb2hsv" [color]) "y" * saturation) .float :=
    .infixed (hcomponent "y" (by decide)) hsaturation rfl
  have hscaled : Γ.HasType (call "clamp"
      [member (call "rgb2hsv" [color]) "y" * saturation, number "0.0", number "1.0"]) .float :=
    .call hΓ (.cons hproduct (.cons hasType_zero (.cons hasType_one .nil))) rfl
  have hbrightness : Γ.HasType (member (call "rgb2hsv" [color]) "z" * value) .float :=
    .infixed (hcomponent "z" (by decide)) hvalue rfl
  have hvector : Γ.HasType (call "vec3" [_, _, _]) .vec3 :=
    .call hΓ (.cons hshifted (.cons hscaled (.cons hbrightness .nil))) rfl
  have hback : Γ.HasType (call "hsv2rgb" [call "vec3" [_, _, _]]) .vec3 :=
    .call hΓ (.cons hvector .nil) rfl
  exact ⟨_, rfl, .call hΓ (.cons hcolor (.cons hback (.cons hfac .nil))) rfl⟩

/-- A change of brightness and contrast makes a colour of a colour. -/
lemma hasType_brightContrast {color bright contrast : Expression} (hcolor : Γ.HasType color .vec3)
    (hbright : Γ.HasType bright .float) (hcontrast : Γ.HasType contrast .float) :
    ∃ tree, brightContrast.operation [color, bright, contrast] = some tree ∧
      Γ.HasType tree .vec3 := by
  have hgain : Γ.HasType (number "1.0" + contrast) .float := .infixed hasType_one hcontrast rfl
  have hscaled : Γ.HasType ((number "1.0" + contrast) * color) .vec3 := .infixed hgain hcolor rfl
  have hhalf : Γ.HasType (contrast * number "0.5") .float := .infixed hcontrast hasType_half rfl
  have hshift : Γ.HasType (bright - contrast * number "0.5") .float := .infixed hbright hhalf rfl
  have hsum : Γ.HasType ((number "1.0" + contrast) * color +
      splat (bright - contrast * number "0.5")) .vec3 :=
    .infixed hscaled (hasType_splat hΓ hshift) rfl
  exact ⟨_, rfl, .call hΓ (.cons hsum (.cons (hasType_splat hΓ hasType_zero) .nil)) rfl⟩

/-- A curve is looked up for each component and makes a colour of a colour. -/
lemma hasType_rgbCurves {fac color curve : Expression} (hfac : Γ.HasType fac .float)
    (hcolor : Γ.HasType color .vec3) (hcurve : Γ.HasType curve .sampler1D) :
    ∃ tree, rgbCurves.operation [fac, color, curve] = some tree ∧ Γ.HasType tree .vec3 := by
  have hcurved (channel : String)
      (hvec3 : DataType.vec3.selected? channel.toList = some .float)
      (hvec4 : (DataType.vector .float 4).selected? channel.toList = some .float) :
      Γ.HasType (member (call "texture" [curve, member color channel]) channel) .float :=
    .member (.call hΓ (.cons hcurve (.cons (.member hcolor hvec3) .nil)) rfl) hvec4
  have hred := hcurved "r" (by decide) (by decide)
  have hgreen := hcurved "g" (by decide) (by decide)
  have hblue := hcurved "b" (by decide) (by decide)
  have hvector : Γ.HasType (call "vec3" [_, _, _]) .vec3 :=
    .call hΓ (.cons hred (.cons hgreen (.cons hblue .nil))) rfl
  exact ⟨_, rfl, .call hΓ (.cons hcolor (.cons hvector (.cons hfac .nil))) rfl⟩

/-- Two colours are mixed into one, in every mode. -/
lemma hasType_mix (m : MixMode) {fac first second : Expression} (hfac : Γ.HasType fac .float)
    (hfirst : Γ.HasType first .vec3) (hsecond : Γ.HasType second .vec3) :
    ∃ tree, (mix m).operation [fac, first, second] = some tree ∧ Γ.HasType tree .vec3 := by
  cases m with
  | mix => exact ⟨_, rfl, .call hΓ (.cons hfirst (.cons hsecond (.cons hfac .nil))) rfl⟩
  | add | multiply | subtract => exact ⟨_, rfl, .infixed hfirst hsecond rfl⟩
  | screen =>
    have hproduct : Γ.HasType
        ((splat (number "1.0") - first) * (splat (number "1.0") - second)) .vec3 :=
      .infixed (hasType_inverse hΓ hfirst) (hasType_inverse hΓ hsecond) rfl
    exact ⟨_, rfl, hasType_inverse hΓ hproduct⟩

/-- A ramp makes a colour out of a number and the two colours at its ends. -/
lemma hasType_colorRamp {fac first second low high : Expression} (hfac : Γ.HasType fac .float)
    (hfirst : Γ.HasType first .vec3) (hsecond : Γ.HasType second .vec3)
    (hlow : Γ.HasType low .float) (hhigh : Γ.HasType high .float) :
    ∃ tree, colorRamp.operation [fac, first, second, low, high] = some tree ∧
      Γ.HasType tree .vec3 := by
  have hclamped : Γ.HasType (call "clamp" [fac, low, high]) .float :=
    .call hΓ (.cons hfac (.cons hlow (.cons hhigh .nil))) rfl
  have hoffset : Γ.HasType (call "clamp" [fac, low, high] - low) .float :=
    .infixed hclamped hlow rfl
  have hrange : Γ.HasType (high - low) .float := .infixed hhigh hlow rfl
  have hguarded : Γ.HasType (call "max" [high - low, number "0.00001"]) .float :=
    .call hΓ (.cons hrange (.cons (.float (by decide)) .nil)) rfl
  have hposition : Γ.HasType ((call "clamp" [fac, low, high] - low) /
      call "max" [high - low, number "0.00001"]) .float := .infixed hoffset hguarded rfl
  exact ⟨_, rfl, .call hΓ (.cons hfirst (.cons hsecond (.cons hposition .nil))) rfl⟩

/-- Numbers make a number, in every mode. -/
lemma hasType_math (m : MathMode) {first second : Expression} (hfirst : Γ.HasType first .float)
    (hsecond : Γ.HasType second .float) :
    ∃ tree, (math m).operation [first, second] = some tree ∧ Γ.HasType tree .float := by
  cases m with
  | add | subtract | multiply => exact ⟨_, rfl, .infixed hfirst hsecond rfl⟩
  | divide =>
    have htest : Γ.HasType (infixed .equal second (number "0.0")) (.vector .bool 1) :=
      .infixed hsecond hasType_zero rfl
    have hquotient : Γ.HasType (first / second) .float := .infixed hfirst hsecond rfl
    exact ⟨_, rfl, .conditional htest hasType_zero hquotient rfl⟩
  | power | modulo | minimum | maximum =>
    exact ⟨_, rfl, .call hΓ (.cons hfirst (.cons hsecond .nil)) rfl⟩

/-- Vectors make a vector, in every mode. -/
lemma hasType_vectorMath (m : VectorMode) {first second : Expression}
    (hfirst : Γ.HasType first .vec3) (hsecond : Γ.HasType second .vec3) :
    ∃ tree, (vectorMath m).operation [first, second] = some tree ∧ Γ.HasType tree .vec3 := by
  cases m with
  | add | subtract => exact ⟨_, rfl, .infixed hfirst hsecond rfl⟩
  | crossProduct => exact ⟨_, rfl, .call hΓ (.cons hfirst (.cons hsecond .nil)) rfl⟩
  | dotProduct =>
    have hproduct : Γ.HasType (call "dot" [first, second]) .float :=
      .call hΓ (.cons hfirst (.cons hsecond .nil)) rfl
    exact ⟨_, rfl, hasType_splat hΓ hproduct⟩
  | normalize => exact ⟨_, rfl, .call hΓ (.cons hfirst .nil) rfl⟩

/-- The operation of a kind has the type of the kind's output. -/
lemma hasType_operation (k : Kind) {trees : List Expression}
    (h : List.Forall₂ (fun (s : SocketSpec) e => Γ.HasType e s.type.dataType) k.sockets trees) :
    ∃ tree, k.operation trees = some tree ∧ Γ.HasType tree k.output.dataType := by
  cases k with
  | gamma m =>
    obtain _ | ⟨hcolor, _ | _⟩ := h
    have hexponent : Γ.HasType (number "2.2") .float := .float (by decide)
    have hinverse : Γ.HasType (number "1.0" / number "2.2") .float :=
      .infixed hasType_one hexponent rfl
    cases m with
    | linearToSRGB =>
      exact ⟨_, rfl, .call hΓ (.cons hcolor (.cons (hasType_splat hΓ hinverse) .nil)) rfl⟩
    | srgbToLinear =>
      exact ⟨_, rfl, .call hΓ (.cons hcolor (.cons (hasType_splat hΓ hexponent) .nil)) rfl⟩
  | hsv =>
    obtain _ | ⟨hhue, _ | ⟨hsaturation, _ | ⟨hvalue, _ | ⟨hfac, _ | ⟨hcolor, _ | _⟩⟩⟩⟩⟩ := h
    exact hasType_hsv hΓ hhue hsaturation hvalue hfac hcolor
  | invert =>
    obtain _ | ⟨hfac, _ | ⟨hcolor, _ | _⟩⟩ := h
    exact ⟨_, rfl,
      .call hΓ (.cons hcolor (.cons (hasType_inverse hΓ hcolor) (.cons hfac .nil))) rfl⟩
  | brightContrast =>
    obtain _ | ⟨hcolor, _ | ⟨hbright, _ | ⟨hcontrast, _ | _⟩⟩⟩ := h
    exact hasType_brightContrast hΓ hcolor hbright hcontrast
  | lightFalloff m =>
    obtain _ | ⟨hdistance, _ | _⟩ := h
    cases m with
    | quadratic =>
      exact ⟨_, rfl, .infixed hasType_one (.infixed (o := .multiply) hdistance hdistance rfl) rfl⟩
    | linear => exact ⟨_, rfl, .infixed hasType_one hdistance rfl⟩
    | constant => exact ⟨_, rfl, hasType_one⟩
  | rgbCurves =>
    obtain _ | ⟨hfac, _ | ⟨hcolor, _ | ⟨hcurve, _ | _⟩⟩⟩ := h
    exact hasType_rgbCurves hΓ hfac hcolor hcurve
  | mix m =>
    obtain _ | ⟨hfac, _ | ⟨hfirst, _ | ⟨hsecond, _ | _⟩⟩⟩ := h
    exact hasType_mix hΓ m hfac hfirst hsecond
  | clamp m =>
    obtain _ | ⟨hvalue, _ | ⟨hlow, _ | ⟨hhigh, _ | _⟩⟩⟩ := h
    cases m with
    | minMax => exact ⟨_, rfl, .call hΓ (.cons hvalue (.cons hlow (.cons hhigh .nil))) rfl⟩
    | minOnly => exact ⟨_, rfl, .call hΓ (.cons hvalue (.cons hlow .nil)) rfl⟩
    | maxOnly => exact ⟨_, rfl, .call hΓ (.cons hvalue (.cons hhigh .nil)) rfl⟩
  | colorRamp =>
    obtain _ | ⟨hfac, _ | ⟨hfirst, _ | ⟨hsecond, _ | ⟨hlow, _ | ⟨hhigh, _ | _⟩⟩⟩⟩⟩ := h
    exact hasType_colorRamp hΓ hfac hfirst hsecond hlow hhigh
  | combineColor =>
    obtain _ | ⟨hred, _ | ⟨hgreen, _ | ⟨hblue, _ | _⟩⟩⟩ := h
    exact ⟨_, rfl, .call hΓ (.cons hred (.cons hgreen (.cons hblue .nil))) rfl⟩
  | math m =>
    obtain _ | ⟨hfirst, _ | ⟨hsecond, _ | _⟩⟩ := h
    exact hasType_math hΓ m hfirst hsecond
  | rgbToBW =>
    obtain _ | ⟨hcolor, _ | _⟩ := h
    have hweights : Γ.HasType
        (call "vec3" [number "0.2126", number "0.7152", number "0.0722"]) .vec3 :=
      .call hΓ (.cons (.float (by decide)) (.cons (.float (by decide))
        (.cons (.float (by decide)) .nil))) rfl
    exact ⟨_, rfl, .call hΓ (.cons hcolor (.cons hweights .nil)) rfl⟩
  | separateColor channel =>
    obtain _ | ⟨hcolor, _ | _⟩ := h
    cases channel <;> exact ⟨_, rfl, .member hcolor (by decide)⟩
  | vectorMath m =>
    obtain _ | ⟨hfirst, _ | ⟨hsecond, _ | _⟩⟩ := h
    exact hasType_vectorMath hΓ m hfirst hsecond
  | diffuseShader =>
    obtain _ | ⟨hcolor, _ | ⟨hnormal, _ | ⟨hdirection, _ | _⟩⟩⟩ := h
    exact ⟨_, rfl, .call hΓ (.cons hnormal (.cons hdirection (.cons hcolor .nil))) rfl⟩
  | emission =>
    obtain _ | ⟨hcolor, _ | ⟨hstrength, _ | _⟩⟩ := h
    exact ⟨_, rfl, .infixed hcolor hstrength rfl⟩
  | materialOutput =>
    obtain _ | ⟨hsurface, _ | ⟨halpha, _ | _⟩⟩ := h
    exact ⟨_, rfl, .call hΓ (.cons hsurface (.cons halpha .nil)) rfl⟩

/-- What a node generates from expressions of the types of its sockets is an expression of the type
of its output. -/
lemma hasType_of_generate (k : Kind) {inputs : List String} {trees : List Expression}
    {code : String} (hreads : List.Forall₂ (Reads .loose) inputs trees)
    (htypes : List.Forall₂ (fun (s : SocketSpec) e => Γ.HasType e s.type.dataType) k.sockets trees)
    (hcode : k.generate inputs = .ok code) :
    ∃ e, Reads .tight code e ∧ Γ.HasType e k.output.dataType := by
  have hlength : inputs.length = k.sockets.length :=
    hreads.length_eq.trans htypes.length_eq.symm
  rw [generate, if_pos hlength, Except.ok.injEq] at hcode
  have hcolor : k = .rgbCurves → ¬ IsBareNumber (k.inputOf inputs "Color") := by
    rintro rfl
    obtain _ | ⟨_, _ | ⟨hread, _⟩⟩ := hreads
    · cases hlength
    · cases hlength
    obtain _ | ⟨_, _ | ⟨htype, _⟩⟩ := htypes
    exact hread.not_isBareNumber (HasType.ne_number htype)
  obtain ⟨tree, htree, htype⟩ := hasType_operation hΓ k htypes
  rw [k.operation_eq htypes.length_eq.symm, Option.some.injEq] at htree
  obtain rfl := hcode
  obtain rfl := htree
  exact ⟨_, reads_spliced hlength hreads hcolor, htype⟩

end Derivations

/-- The literals that new sockets hold are well typed. -/
lemma default_wellTyped (hΓ : Γ.Ambient) (k : Kind) :
    ∀ s ∈ k.sockets, ∀ l, s.default = some l → l.WellTyped Γ := by
  have hnumber : ∀ text ∈ ["0.0", "0.5", "1.0"], (⟨.float, text⟩ : Literal).WellTyped Γ := by
    simp only [List.forall_mem_cons]
    exact ⟨⟨_, read_eq_some_iff.mp rfl, hasType_zero⟩, ⟨_, read_eq_some_iff.mp rfl, hasType_half⟩,
      ⟨_, read_eq_some_iff.mp rfl, hasType_one⟩, by simp⟩
  have hcolor : ∀ text ∈ ["0.0", "0.5", "0.8", "1.0"],
      (Literal.vector .vec3 [text]).WellTyped Γ := by
    have hsplat {e : Expression} (he : Γ.HasType e .float) := hasType_splat hΓ.standard he
    simp only [List.forall_mem_cons]
    exact ⟨⟨_, read_eq_some_iff.mp rfl, hsplat hasType_zero⟩,
      ⟨_, read_eq_some_iff.mp rfl, hsplat hasType_half⟩,
      ⟨_, read_eq_some_iff.mp rfl, hsplat (.float (by decide))⟩,
      ⟨_, read_eq_some_iff.mp rfl, hsplat hasType_one⟩, by simp⟩
  have hcatalog : ∀ k ∈ catalog, ∀ s ∈ k.sockets, s.default ∈ [none] ++
      ["0.0", "0.5", "1.0"].map (fun text => some ⟨.float, text⟩) ++
      ["0.0", "0.5", "0.8", "1.0"].map (fun text => some (Literal.vector .vec3 [text])) ++
      ["surface_normal", "light_direction"].map (fun text => some ⟨.vec3, text⟩) := by
    decide
  obtain ⟨standard, hstandard, -, hsockets, -⟩ := exists_standard k
  intro s hs l hl
  rw [← hsockets] at hs
  have hmem := hcatalog standard hstandard s hs
  simp only [hl, List.mem_append, List.mem_map, Option.some.injEq, List.mem_singleton,
    reduceCtorEq, false_or] at hmem
  rcases hmem with (⟨text, htext, rfl⟩ | ⟨text, htext, rfl⟩) | ⟨text, htext, rfl⟩
  · exact hnumber text htext
  · exact hcolor text htext
  · simp only [List.mem_cons, List.not_mem_nil, or_false] at htext
    rcases htext with rfl | rfl
    · exact ⟨_, read_eq_some_iff.mp rfl, hΓ.normal⟩
    · exact ⟨_, read_eq_some_iff.mp rfl, hΓ.direction⟩

end Kind

end MaterialGraph
