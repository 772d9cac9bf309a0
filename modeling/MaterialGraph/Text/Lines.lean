/-!
# Lines

A line ends at a line feed, which takes one carriage return right before it along.  A line feed at
the very end of a text starts no further line, and a carriage return anywhere else is a character
like any other.
-/

namespace MaterialGraph.Text

/-- A line, given backwards, without the carriage return that came before its line feed. -/
def dropReturn : List Char → List Char
  | '\r' :: cs => cs
  | cs => cs

/-- The lines of a text whose first line starts with `start`, given backwards. -/
def linesFrom (start : List Char) : List Char → List (List Char)
  | [] => if start.isEmpty then [] else [start.reverse]
  | c :: cs =>
    if c = '\n' then (dropReturn start).reverse :: linesFrom [] cs
    else linesFrom (c :: start) cs

/-- The lines of a text. -/
def lines (s : String) : List String :=
  (linesFrom [] s.toList).map String.ofList

/-- Whether `pattern` stands somewhere in the text. -/
def occurs (pattern : List Char) : List Char → Bool
  | [] => pattern.isEmpty
  | c :: cs => pattern.isPrefixOf (c :: cs) || occurs pattern cs

/-- Each line followed by a line feed. -/
def unlines (ls : List String) : String :=
  ls.foldr (fun line rest => line ++ "\n" ++ rest) ""

/-- Texts one after the other, with a separator between two of them. -/
def separated (separator : String) : List String → String
  | [] => ""
  | [s] => s
  | s :: ss => s ++ separator ++ separated separator ss

/-- Whether one text comes before another when they are compared code point by code point; a text
comes before its proper continuations. -/
def precedes : List Char → List Char → Bool
  | _, [] => false
  | [], _ :: _ => true
  | a :: as, b :: bs =>
    if a.toNat < b.toNat then true
    else if b.toNat < a.toNat then false
    else precedes as bs

end MaterialGraph.Text
