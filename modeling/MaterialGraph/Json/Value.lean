import MaterialGraph.Json.Tree
import MaterialGraph.Text.Lines

/-!
# JSON values

Values without faults, how they are taken out of a tree, and their canonical form, in which the
fields of every object are sorted by key and no key is repeated.
-/

namespace MaterialGraph.Json

/-- A JSON value.  The fields of an object are kept in order, repeated keys included. -/
inductive Value where
  | null
  | bool (b : Bool)
  | number (n : Number)
  | string (s : String)
  | array (items : List Value)
  | object (fields : List (String × Value))

/-- The fault, if there is one, of an array or object that stops early. -/
def ended (stop : Option Defect) : Except Fault Unit :=
  match stop with
  | none => .ok ()
  | some d => .error d.read

namespace Tree

/-- How many arrays and objects may be open at once. -/
def depthLimit : Nat := 127

mutual

/-- The value of a tree in which at most `budget` arrays and objects lie in each other. -/
def toValue (budget : Nat) : Tree → Except Fault Value
  | null => .ok .null
  | bool b => .ok (.bool b)
  | number n => .ok (.number n)
  | string s => .ok (.string s)
  | array items stop =>
    match budget with
    | 0 => .error .tooDeep
    | budget + 1 => do
      let values ← itemValues budget items
      ended stop
      return .array values
  | object fields stop =>
    match budget with
    | 0 => .error .tooDeep
    | budget + 1 => do
      let values ← fieldValues budget fields
      ended stop
      return .object values
  | defect d => .error d.read

/-- The values of the items of an array. -/
def itemValues (budget : Nat) : List Tree → Except Fault (List Value)
  | [] => .ok []
  | t :: ts => do
    let v ← toValue budget t
    let vs ← itemValues budget ts
    return v :: vs

/-- The fields of an object with their values. -/
def fieldValues (budget : Nat) :
    List (Except Fault String × Tree) → Except Fault (List (String × Value))
  | [] => .ok []
  | (key, t) :: fs => do
    let key ← key
    let v ← toValue budget t
    let vs ← fieldValues budget fs
    return (key, v) :: vs

end

/-- The fault, if there is one, of an array or object that is passed over and stops early. -/
def skippedStop : Option Defect → Option Fault
  | none => none
  | some d => d.skip

mutual

/-- The first fault that a reader meets who passes over a tree.  Numbers may be too large, strings
may hold half pairs of code units, and the depth does not matter. -/
def skipFault : Tree → Option Fault
  | array items stop => itemsFault items <|> skippedStop stop
  | object fields stop => fieldsFault fields <|> skippedStop stop
  | defect d => d.skip
  | _ => none

/-- The first fault in the items of an array that is passed over. -/
def itemsFault : List Tree → Option Fault
  | [] => none
  | t :: ts => skipFault t <|> itemsFault ts

/-- The first fault in the fields of an object that is passed over. -/
def fieldsFault : List (Except Fault String × Tree) → Option Fault
  | [] => none
  | (_, t) :: fs => skipFault t <|> fieldsFault fs

end

end Tree

/-- Put an entry into a list sorted by key, in place of one with the same key. -/
def insertEntry {α : Type} (key : String) (value : α) : List (String × α) → List (String × α)
  | [] => [(key, value)]
  | (k, v) :: rest =>
    if Text.precedes key.toList k.toList then (key, value) :: (k, v) :: rest
    else if k == key then (key, value) :: rest
    else (k, v) :: insertEntry key value rest

/-- The entries sorted by key; of several with one key the last. -/
def sortEntries {α : Type} (entries : List (String × α)) : List (String × α) :=
  entries.foldl (fun sorted (key, value) => insertEntry key value sorted) []

namespace Value

mutual

/-- The value with the fields of every object sorted, the last of several with one key kept. -/
def canonical : Value → Value
  | array items => array (canonicalItems items)
  | object fields => object (sortEntries (canonicalFields fields))
  | v => v

/-- The canonical forms of the items of an array. -/
def canonicalItems : List Value → List Value
  | [] => []
  | v :: vs => canonical v :: canonicalItems vs

/-- The canonical forms of the values of fields. -/
def canonicalFields : List (String × Value) → List (String × Value)
  | [] => []
  | (key, v) :: fs => (key, canonical v) :: canonicalFields fs

end

end Value

end MaterialGraph.Json
