import MaterialGraph.Json.Token

/-!
# JSON texts as trees

A text is read as far as its form allows, and what is wrong with it stands in the tree at the place
where a reader meets it.  So reading a text never fails: it is for those who use the tree, and only
when they come to the place, to complain.
-/

namespace MaterialGraph.Json

/-- A text in the place of a value.  An array or object that stops early has its defect at the end.
A key that cannot be read is given by its fault. -/
inductive Tree where
  | null
  | bool (b : Bool)
  | number (n : Number)
  | string (s : String)
  | array (items : List Tree) (stop : Option Defect)
  | object (fields : List (Except Fault String × Tree)) (stop : Option Defect)
  | defect (d : Defect)

/-- A text: the tree of its value, and whether anything follows it. -/
structure Reading where
  tree : Tree
  trailing : Bool

namespace Tree

/-- The key of a field as far as it can be read. -/
abbrev Key := Except Fault String

/-- An array or object that is being read: what it has so far, the latest first, and for an object
the key of the field whose value is due. -/
inductive Open where
  | array (items : List Tree)
  | object (fields : List (Key × Tree)) (key : Key)

/-- The value of a word or number. -/
def ofScalar : Scalar → Tree
  | .null => null
  | .bool b => bool b
  | .number n => number n

/-- The key that a string token makes. -/
def keyOf : Except Defect String → Key
  | .ok s => .ok s
  | .error d => .error d.read

/-- The whole tree when reading stops in the value `t` of the innermost open part. -/
def abandon : List Open → Tree → Tree
  | [], t => t
  | .array items :: outer, t => abandon outer (array (t :: items).reverse none)
  | .object fields key :: outer, t => abandon outer (object ((key, t) :: fields).reverse none)

/-- The reading of a text that stops in the value `t`. -/
def stopped (outer : List Open) (t : Tree) : Reading :=
  ⟨abandon outer t, false⟩

/-- An object that stops where a key and a colon are due, at the given tokens. -/
def stoppedField (afterComma : Bool) (fields : List (Key × Tree)) : List Token → Tree
  | [] =>
    object fields.reverse
      (some ⟨if afterComma then .endInValue else .endInObject, some .endInObject⟩)
  | .closeObject :: _ => object fields.reverse (some ⟨.trailingComma, some .keyNotString⟩)
  | [.string (.error ⟨f, some f'⟩)] => object fields.reverse (some ⟨f, some f'⟩)
  | [.string key] => object ((keyOf key, defect (.both .endInObject)) :: fields).reverse none
  | .string key :: _ => object ((keyOf key, defect (.both .expectedColon)) :: fields).reverse none
  | _ :: _ => object fields.reverse (some (.both .keyNotString))

mutual

/-- Read a value inside open arrays and objects. -/
def readValue : List Open → List Token → Reading
  | outer, [] => stopped outer (defect (.both .endInValue))
  | outer, .scalar (.ok v) :: ts => readAfter outer (ofScalar v) ts
  | outer, .string (.ok s) :: ts => readAfter outer (string s) ts
  | outer, .scalar (.error d) :: ts =>
    if d.skip.isSome then stopped outer (defect d) else readAfter outer (defect d) ts
  | outer, .string (.error d) :: ts =>
    if d.skip.isSome then stopped outer (defect d) else readAfter outer (defect d) ts
  | outer, [.openArray] => stopped outer (array [] (some (.both .endInList)))
  | outer, .openArray :: .closeArray :: ts => readAfter outer (array [] none) ts
  | outer, .openArray :: ts => readValue (.array [] :: outer) ts
  | outer, .openObject :: .closeObject :: ts => readAfter outer (object [] none) ts
  | outer, .openObject :: .string key :: .colon :: ts =>
    readValue (.object [] (keyOf key) :: outer) ts
  | outer, .openObject :: ts => stopped outer (stoppedField false [] ts)
  | outer, _ :: _ => stopped outer (defect (.both .expectedValue))

/-- Go on after the value `t` of the innermost open part. -/
def readAfter : List Open → Tree → List Token → Reading
  | [], t, ts => ⟨t, !ts.isEmpty⟩
  | .array items :: outer, t, .closeArray :: ts =>
    readAfter outer (array (t :: items).reverse none) ts
  | .array items :: outer, t, .comma :: .closeArray :: _ =>
    stopped outer (array (t :: items).reverse (some ⟨.trailingComma, some .expectedValue⟩))
  | .array items :: outer, t, .comma :: ts => readValue (.array (t :: items) :: outer) ts
  | .array items :: outer, t, [] =>
    stopped outer (array (t :: items).reverse (some (.both .endInList)))
  | .array items :: outer, t, _ :: _ =>
    stopped outer (array (t :: items).reverse (some (.both .expectedListComma)))
  | .object fields key :: outer, t, .closeObject :: ts =>
    readAfter outer (object ((key, t) :: fields).reverse none) ts
  | .object fields key :: outer, t, .comma :: .string key' :: .colon :: ts =>
    readValue (.object ((key, t) :: fields) (keyOf key') :: outer) ts
  | .object fields key :: outer, t, .comma :: ts =>
    stopped outer (stoppedField true ((key, t) :: fields) ts)
  | .object fields key :: outer, t, [] =>
    stopped outer (object ((key, t) :: fields).reverse (some (.both .endInObject)))
  | .object fields key :: outer, t, _ :: _ =>
    stopped outer (object ((key, t) :: fields).reverse (some (.both .expectedObjectComma)))

end

/-- Read a text. -/
def read (s : String) : Reading :=
  readValue [] (Token.lex s.toList)

end Tree

end MaterialGraph.Json
