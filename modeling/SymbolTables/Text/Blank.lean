/-!
# White space

The characters of Unicode property `White_Space`, and cutting them off both ends of a text.
-/
namespace SymbolTables.Text

/-- The ranges of property `White_Space`, 25 characters in all. -/
def whiteSpace : List (Nat × Nat) :=
  [(0x09, 0x0D), (0x20, 0x20), (0x85, 0x85), (0xA0, 0xA0), (0x1680, 0x1680), (0x2000, 0x200A),
   (0x2028, 0x2029), (0x202F, 0x202F), (0x205F, 0x205F), (0x3000, 0x3000)]

/-- Whether a code point lies in one of the ranges, ends included. -/
def inRanges (ranges : List (Nat × Nat)) (c : Char) : Bool :=
  ranges.any fun r => r.1 ≤ c.toNat && c.toNat ≤ r.2

def isWhiteSpace (c : Char) : Bool := inRanges whiteSpace c

/-- A text without the white space at its ends. -/
def trim (s : List Char) : List Char :=
  ((s.dropWhile isWhiteSpace).reverse.dropWhile isWhiteSpace).reverse

/-- `trim` on strings. -/
def strip (s : String) : String := String.ofList (trim s.toList)

end SymbolTables.Text
