/-!
# Blank characters and trimming

A package name may be surrounded by white space of any script, so trimming follows the Unicode
property `White_Space` and not the handful of ASCII blanks. The property is small enough to be
written down as a list of code point ranges, with which `Text.isBlank` can be decided by
computation.
-/

namespace ResourceStubs.Text

/-- The code point ranges of the property `White_Space`, in increasing order. -/
def blankRanges : List (Nat × Nat) :=
  [(0x9, 0xD), (0x20, 0x20), (0x85, 0x85), (0xA0, 0xA0), (0x1680, 0x1680), (0x2000, 0x200A),
    (0x2028, 0x2029), (0x202F, 0x202F), (0x205F, 0x205F), (0x3000, 0x3000)]

/-- A character is blank when it has the property `White_Space`. -/
def isBlank (c : Char) : Bool :=
  blankRanges.any fun r => r.1 ≤ c.toNat && c.toNat ≤ r.2

/-- Drops the blanks at both ends of a character list. -/
def trimList (cs : List Char) : List Char :=
  ((cs.dropWhile isBlank).reverse.dropWhile isBlank).reverse

/-- Drops the blanks at both ends of a text; blanks in the middle stay. -/
def trim (s : String) : String :=
  String.ofList (trimList s.toList)

end ResourceStubs.Text
