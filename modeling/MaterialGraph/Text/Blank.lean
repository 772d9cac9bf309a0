/-!
# White space

The characters with the Unicode property `White_Space`, and what is left of a text when they are
taken off both ends.  The zero-width space and the byte order mark do not have the property.
-/

namespace MaterialGraph.Text

/-- The code points of Unicode's property `White_Space`, as closed ranges. -/
def blankRanges : List (Nat × Nat) :=
  [(0x09, 0x0D), (0x20, 0x20), (0x85, 0x85), (0xA0, 0xA0), (0x1680, 0x1680), (0x2000, 0x200A),
    (0x2028, 0x2029), (0x202F, 0x202F), (0x205F, 0x205F), (0x3000, 0x3000)]

/-- White space in the sense of Unicode. -/
def isBlank (c : Char) : Bool :=
  blankRanges.any fun (low, high) => low ≤ c.toNat && c.toNat ≤ high

/-- A text without the white space at its two ends. -/
def trim (cs : List Char) : List Char :=
  ((cs.dropWhile isBlank).reverse.dropWhile isBlank).reverse

/-- A text of white space only; the empty text is one. -/
def allBlank (cs : List Char) : Bool :=
  cs.all isBlank

end MaterialGraph.Text
