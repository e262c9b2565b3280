import StatementTable.Text.Grapheme
import StatementTable.Text.Printable

/-!
# Quoted text

A text is quoted for a message by double quotes around it.  Inside, a quote, a backslash and the
usual control characters are written with a backslash, and every character that would not show on
its own is written by its code point in braces.
-/

namespace StatementTable.Text

/-- The hexadecimal digits of a code point, in lower case. -/
def hexadecimal (n : Nat) : List Char :=
  Nat.toDigits 16 n

/-- A character as it stands in a quoted text. -/
def quoteChar (c : Char) : List Char :=
  match c with
  | '\x00' => ['\\', '0']
  | '\t' => ['\\', 't']
  | '\n' => ['\\', 'n']
  | '\r' => ['\\', 'r']
  | '"' => ['\\', '"']
  | '\\' => ['\\', '\\']
  | c =>
    if isPrintable c && !extendsGrapheme c then [c]
    else '\\' :: 'u' :: '\x7b' :: hexadecimal c.toNat ++ ['\x7d']

/-- A text between double quotes. -/
def quote (s : String) : String :=
  String.ofList ('"' :: s.toList.flatMap quoteChar ++ ['"'])

end StatementTable.Text
