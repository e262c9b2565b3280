import StatementTable.Text.Ranges
import StatementTable.Text.Trailing

/-!
# Blank characters

A character is blank when it has the Unicode property `White_Space`.  `trim` takes the blank
characters off both ends of a text.
-/

namespace StatementTable.Text

/-- The code points with the property `White_Space`. -/
def blankRanges : List (Nat × Nat) :=
  [(0x9, 0xd), (0x20, 0x20), (0x85, 0x85), (0xa0, 0xa0), (0x1680, 0x1680), (0x2000, 0x200a),
   (0x2028, 0x2029), (0x202f, 0x202f), (0x205f, 0x205f), (0x3000, 0x3000)]

def isBlank (c : Char) : Bool :=
  inRanges blankRanges c

/-- Takes the blank characters off both ends of a text. -/
def trim (s : String) : String :=
  String.ofList (dropTrailing isBlank (s.toList.dropWhile isBlank))

end StatementTable.Text
