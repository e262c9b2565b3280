/-!
# Sets of characters given by ranges

The character classes of this library are tables of closed ranges of code points.
-/

namespace StatementTable.Text

/-- Whether a character lies in one of the closed ranges of code points. -/
def inRanges (ranges : List (Nat × Nat)) (c : Char) : Bool :=
  ranges.any fun range => range.1 ≤ c.toNat && c.toNat ≤ range.2

end StatementTable.Text
