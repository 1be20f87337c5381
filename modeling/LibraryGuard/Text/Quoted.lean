import LibraryGuard.Text.Shown

/-!
# Quoted text

A text is quoted between two double quotes. The quote itself and the backslash stand after a backslash, tabulator, line feed,
carriage return and NUL are written as a letter or digit after a backslash, and every other character that does not show as
itself as its code point in braces.
-/

namespace LibraryGuard.Text

/-- How a character is written between quotes. -/
def escaped (c : Char) : List Char :=
  match c with
  | '\x00' => ['\\', '0']
  | '\t' => ['\\', 't']
  | '\n' => ['\\', 'n']
  | '\r' => ['\\', 'r']
  | '"' => ['\\', '"']
  | '\\' => ['\\', '\\']
  | c => if isShown c then [c] else ['\\', 'u', '\x7b'] ++ Nat.toDigits 16 c.toNat ++ ['\x7d']

/-- A text between quotes. -/
def quoted (s : String) : String := String.ofList ('"' :: s.toList.flatMap escaped ++ ['"'])

end LibraryGuard.Text
