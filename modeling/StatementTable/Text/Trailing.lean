/-!
# The end of a text

`dropTrailing p` takes the longest run of characters that satisfy `p` off the end of a list.
-/

namespace StatementTable.Text

/-- Takes the characters that satisfy `p` off the end of a list. -/
def dropTrailing (p : Char → Bool) (cs : List Char) : List Char :=
  (cs.reverse.dropWhile p).reverse

end StatementTable.Text
