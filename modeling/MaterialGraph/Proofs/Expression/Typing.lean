import MaterialGraph.Proofs.Expression.Grammar
import MaterialGraph.Scope

/-!
# Types of expressions

The typing rules of the shading language for scalars, vectors, samplers and arrays.  A scalar is
treated as a vector with one component.  Between numbers of different scalar types the language
converts implicitly, in the direction from whole numbers to floating-point numbers.

A context gives types to variables and to calls.  Calls are typed by the types of their arguments,
so that a context can have any overloads; the constructors and functions that formulas use are in
`standard`.  `typeOf` is a function: the type of an expression is exactly the one it gives.
Variables that a context does not have can be added without a change to types (`typeOf_mono`).
-/

namespace MaterialGraph.Expression

/-- What a vector consists of. -/
inductive Scalar where
  | bool
  | int
  | uint
  | float
  | double
  deriving DecidableEq

namespace Scalar

/-- The scalars one can calculate with. -/
def isNumeric : Scalar → Bool
  | bool => false
  | _ => true

/-- Implicit conversions go up in rank. -/
def rank : Scalar → Nat
  | bool => 0
  | int => 1
  | uint => 2
  | float => 3
  | double => 4

/-- The type to which two scalars are converted when they meet. -/
def join? (a b : Scalar) : Option Scalar :=
  if a = b then some a
  else if a.isNumeric && b.isNumeric then some (if a.rank ≤ b.rank then b else a)
  else none

end Scalar

/-- The type of an expression. -/
inductive DataType where
  /-- A scalar if the size is one. -/
  | vector (scalar : Scalar) (size : Nat)
  | sampler1D
  | sampler2D
  | array (element : DataType)
  deriving DecidableEq

namespace DataType

/-- A number. -/
abbrev float : DataType := vector .float 1

/-- A vector with three components. -/
abbrev vec3 : DataType := vector .float 3

/-- Values that can only be handed on to functions. -/
def isOpaque : DataType → Bool
  | vector _ _ => false
  | sampler1D | sampler2D => true
  | array element => element.isOpaque

/-- The type of two values that are compared, or one of which is chosen. -/
def common? : DataType → DataType → Option DataType
  | vector s m, vector t n => if m = n then (s.join? t).map (vector · m) else none
  | a, b => if a = b && !a.isOpaque then some a else none

/-- The type of a calculation with two values: component by component, or with one number for all
components. -/
def arithmetic? : DataType → DataType → Option DataType
  | vector s m, vector t n =>
    if s.isNumeric && t.isNumeric && (m = n || m = 1 || n = 1) then
      (s.join? t).map (vector · (if m = 1 then n else m))
    else none
  | _, _ => none

/-- The type of two values with an infix operator between them. -/
def infixed? : Operator → DataType → DataType → Option DataType
  | .equal, a, b => (a.common? b).map fun _ => vector .bool 1
  | _, a, b => a.arithmetic? b

/-- The type of the negative of a value. -/
def negated? : DataType → Option DataType
  | vector s n => if s.isNumeric then some (vector s n) else none
  | _ => none

/-- The type of a choice between two values. -/
def chosen? (condition yes no : DataType) : Option DataType :=
  if condition = vector .bool 1 then yes.common? no else none

/-- The type of an element or a component. -/
def indexed? (base position : DataType) : Option DataType :=
  if position = vector .int 1 || position = vector .uint 1 then
    match base with
    | array element => some element
    | vector s n => if 1 < n then some (vector s 1) else none
    | _ => none
  else none

/-- The families of names that components have. -/
def componentNames : List (List Char) :=
  [['x', 'y', 'z', 'w'], ['r', 'g', 'b', 'a'], ['s', 't', 'p', 'q']]

/-- The type of a selection: up to four components that the value has, named within one family. -/
def selected? (selector : List Char) : DataType → Option DataType
  | vector s n =>
    if !selector.isEmpty && selector.length ≤ 4 &&
        componentNames.any (fun names => selector.all (· ∈ names.take n)) then
      some (vector s selector.length)
    else none
  | _ => none

end DataType

/-- The type of a number. -/
def numeralType (cs : List Char) : DataType :=
  if Numeral.isFloating cs then
    .vector (if ['f', 'l'].isPrefixOf cs.reverse || ['F', 'L'].isPrefixOf cs.reverse then .double
      else .float) 1
  else if cs.getLast?.any (fun c => c == 'u' || c == 'U') then .vector .uint 1
  else .vector .int 1

/-- A number is a scalar. -/
lemma exists_numeralType_eq (cs : List Char) : ∃ s, numeralType cs = .vector s 1 := by
  unfold numeralType
  split
  · exact ⟨_, rfl⟩
  · split <;> exact ⟨_, rfl⟩

/-- The types of variables, and of calls by the types of their arguments. -/
structure Context where
  names : String → Option DataType
  calls : String → List DataType → Option DataType

mutual

/-- The type of an expression. -/
def typeOf (Γ : Context) : Expression → Option DataType
  | .name s => Γ.names s
  | .number s => some (numeralType s.toList)
  | .call f arguments => (typesOf Γ arguments).bind (Γ.calls f)
  | .index base position => do (← typeOf Γ base).indexed? (← typeOf Γ position)
  | .member base selector => do (← typeOf Γ base).selected? selector.toList
  | .negate e => do (← typeOf Γ e).negated?
  | .infixed o left right => do DataType.infixed? o (← typeOf Γ left) (← typeOf Γ right)
  | .conditional condition yes no => do
    DataType.chosen? (← typeOf Γ condition) (← typeOf Γ yes) (← typeOf Γ no)

/-- The types of several expressions. -/
def typesOf (Γ : Context) : List Expression → Option (List DataType)
  | [] => some []
  | e :: es => do return (← typeOf Γ e) :: (← typesOf Γ es)

end

/-- An expression has exactly the given type. -/
def Context.HasType (Γ : Context) (e : Expression) (t : DataType) : Prop :=
  typeOf Γ e = some t

/-- A context that gives at least the types of another. -/
instance : LE Context where
  le Γ Δ := (∀ s t, Γ.names s = some t → Δ.names s = some t) ∧
    ∀ f ts t, Γ.calls f ts = some t → Δ.calls f ts = some t

mutual

/-- Types are kept in a context that gives more of them. -/
lemma typeOf_mono {Γ Δ : Context} (h : Γ ≤ Δ) :
    ∀ (e : Expression) (t : DataType), typeOf Γ e = some t → typeOf Δ e = some t
  | .name s, t, ht => h.1 s t ht
  | .number s, t, ht => ht
  | .call f arguments, t, ht => by
    simp only [typeOf, Option.bind_eq_some_iff] at ht ⊢
    obtain ⟨ts, hts, ht⟩ := ht
    exact ⟨ts, typesOf_mono h arguments ts hts, h.2 f ts t ht⟩
  | .index base position, t, ht => by
    simp only [typeOf, Option.bind_eq_bind, Option.bind_eq_some_iff] at ht ⊢
    obtain ⟨a, ha, b, hb, ht⟩ := ht
    exact ⟨a, typeOf_mono h base a ha, b, typeOf_mono h position b hb, ht⟩
  | .member base selector, t, ht => by
    simp only [typeOf, Option.bind_eq_bind, Option.bind_eq_some_iff] at ht ⊢
    obtain ⟨a, ha, ht⟩ := ht
    exact ⟨a, typeOf_mono h base a ha, ht⟩
  | .negate e, t, ht => by
    simp only [typeOf, Option.bind_eq_bind, Option.bind_eq_some_iff] at ht ⊢
    obtain ⟨a, ha, ht⟩ := ht
    exact ⟨a, typeOf_mono h e a ha, ht⟩
  | .infixed o left right, t, ht => by
    simp only [typeOf, Option.bind_eq_bind, Option.bind_eq_some_iff] at ht ⊢
    obtain ⟨a, ha, b, hb, ht⟩ := ht
    exact ⟨a, typeOf_mono h left a ha, b, typeOf_mono h right b hb, ht⟩
  | .conditional condition yes no, t, ht => by
    simp only [typeOf, Option.bind_eq_bind, Option.bind_eq_some_iff] at ht ⊢
    obtain ⟨a, ha, b, hb, c, hc, ht⟩ := ht
    exact ⟨a, typeOf_mono h condition a ha, b, typeOf_mono h yes b hb, c, typeOf_mono h no c hc, ht⟩

/-- More names and functions give the types of arguments that fewer give. -/
lemma typesOf_mono {Γ Δ : Context} (h : Γ ≤ Δ) :
    ∀ (es : List Expression) (ts : List DataType), typesOf Γ es = some ts → typesOf Δ es = some ts
  | [], ts, hts => hts
  | e :: es, ts, hts => by
    simp only [typesOf, Option.bind_eq_bind, Option.bind_eq_some_iff] at hts ⊢
    obtain ⟨t, ht, ts', hts', heq⟩ := hts
    exact ⟨t, typeOf_mono h e t ht, ts', typesOf_mono h es ts' hts', heq⟩

end

/-! ### Standard functions -/

/-- The type of vectors of floating-point numbers, if all arguments have it. -/
def sameFloats? : List DataType → Option DataType
  | .vector .float n :: rest =>
    if rest.all (· = .vector .float n) then some (.vector .float n) else none
  | _ => none

/-- How many components several values have together, if all of them are vectors. -/
def componentCount? : List DataType → Option Nat
  | [] => some 0
  | .vector _ n :: rest => (componentCount? rest).map (n + ·)
  | _ => none

/-- A vector of floating-point numbers from the components of the arguments: one for all places, or
enough of them with no argument to spare. -/
def constructed? (size : Nat) (arguments : List DataType) : Option DataType :=
  match componentCount? arguments.dropLast, componentCount? arguments with
  | some before, some all =>
    if (before = 0 && all = 1) || (before < size && size ≤ all) then some (.vector .float size)
    else none
  | _, _ => none

/-- The constructors and functions that formulas use: those of the language, and those that a
surrounding shader has to provide. -/
def standard : String → List DataType → Option DataType
  | "vec2", ts => constructed? 2 ts
  | "vec3", ts => constructed? 3 ts
  | "vec4", ts => constructed? 4 ts
  | "fract", [a] | "normalize", [a] => sameFloats? [a]
  | "pow", [a, b] => sameFloats? [a, b]
  | "min", [a, b] | "max", [a, b] | "mod", [a, b] =>
    if b = .float then sameFloats? [a] else sameFloats? [a, b]
  | "clamp", [a, b, c] =>
    if b = .float && c = .float then sameFloats? [a] else sameFloats? [a, b, c]
  | "mix", [a, b, c] => if c = .float then sameFloats? [a, b] else sameFloats? [a, b, c]
  | "dot", [a, b] => (sameFloats? [a, b]).map fun _ => .float
  | "cross", [.vector .float 3, .vector .float 3] => some .vec3
  | "texture", [.sampler1D, .vector .float 1] => some (.vector .float 4)
  | "texture", [.sampler2D, .vector .float 2] => some (.vector .float 4)
  | "rgb2hsv", [.vector .float 3] | "hsv2rgb", [.vector .float 3] => some .vec3
  | "LambertianBRDF", [.vector .float 3, .vector .float 3, .vector .float 3] => some .vec3
  | _, _ => none

namespace Context

variable {Γ : Context} {t : DataType}

/-- A context that has the standard functions. -/
def Standard (Γ : Context) : Prop :=
  ∀ f ts t, standard f ts = some t → Γ.calls f ts = some t

/-- What a shader may rely on in the code around it. -/
structure Ambient (Γ : Context) : Prop where
  normal : Γ.names "surface_normal" = some .vec3
  direction : Γ.names "light_direction" = some .vec3
  standard : Γ.Standard
  /-- Generated names are not in use. -/
  fresh : ∀ type number, Γ.names (SymbolTable.nameOf type number) = none

namespace HasType

lemma float {s : String} (h : numeralType s.toList = .float) : Γ.HasType (.number s) .float := by
  rw [HasType, typeOf, h]

/-- Arguments with types have the list of their types. -/
lemma typesOf {es : List Expression} {ts : List DataType} (h : List.Forall₂ Γ.HasType es ts) :
    typesOf Γ es = some ts := by
  induction h with
  | nil => rfl
  | @cons e t es ts he _ ih =>
    have he : typeOf Γ e = some t := he
    simp [Expression.typesOf, he, ih]

/-- A call of a standard function whose arguments it takes. -/
lemma call (hΓ : Γ.Standard) {f : String} {es : List Expression} {ts : List DataType}
    (hes : List.Forall₂ Γ.HasType es ts) (ht : standard f ts = some t) :
    Γ.HasType (.call f es) t := by
  rw [HasType, typeOf, HasType.typesOf hes]
  exact hΓ f ts t ht

/-- A selection of components that the type of the base has. -/
lemma member {base : Expression} {a : DataType} {selector : String} (ha : Γ.HasType base a)
    (ht : a.selected? selector.toList = some t) : Γ.HasType (.member base selector) t := by
  simp only [HasType] at ha
  simp [HasType, typeOf, ha, ht]

/-- An operator between operands of types that it takes. -/
lemma infixed {o : Operator} {left right : Expression} {a b : DataType} (ha : Γ.HasType left a)
    (hb : Γ.HasType right b) (ht : DataType.infixed? o a b = some t) :
    Γ.HasType (.infixed o left right) t := by
  simp only [HasType] at ha hb
  simp [HasType, typeOf, ha, hb, ht]

/-- A conditional whose parts have types that go together. -/
lemma conditional {condition yes no : Expression} {a b c : DataType}
    (ha : Γ.HasType condition a) (hb : Γ.HasType yes b) (hc : Γ.HasType no c)
    (ht : DataType.chosen? a b c = some t) : Γ.HasType (.conditional condition yes no) t := by
  simp only [HasType] at ha hb hc
  simp [HasType, typeOf, ha, hb, hc, ht]

/-- A number is no vector. -/
lemma ne_number {e : Expression} (he : Γ.HasType e .vec3) (s : String) : e ≠ .number s := by
  rintro rfl
  obtain ⟨scalar, hscalar⟩ := exists_numeralType_eq s.toList
  have hsize : numeralType s.toList = .vec3 := Option.some.inj he
  rw [hscalar] at hsize
  cases hsize

end HasType

end Context

end MaterialGraph.Expression
