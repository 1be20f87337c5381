import LibraryGuard.Text.Reader

/-!
# Blanks, comments and line ends of a document

Blanks are the space and the tabulator. A comment runs from its sign to the end of the line and may hold every character but
the control characters other than the tabulator. A line ends with a line feed, with a carriage return before it or not.
-/

namespace LibraryGuard.Toml

open Text (Reader)
open Text.Reader

/-- A character outside of ASCII. -/
def isBeyondAscii (c : Char) : Bool := 0x80 ≤ c.toNat

/-- A space or a tabulator. -/
def isSpace (c : Char) : Bool := c = ' ' || c = '\t'

/-- Takes all blanks. -/
def spaces : Reader Unit := do let _ ← while_ isSpace

/-- Takes a line end. -/
def newline : Reader Unit := char '\n' <|> word ['\r', '\n']

/-- A character that a comment may hold. -/
def inComment (c : Char) : Bool := c = '\t' || (0x20 ≤ c.toNat && c ≠ '\x7f')

/-- Takes a comment. -/
def comment : Reader Unit := do
  char '#'
  let _ ← while_ inComment

/-- Takes blanks, comments and line ends. -/
def blankLines : Reader Unit := do
  let _ ← many (newline <|> (do comment; newline) <|> (do let _ ← while1 isSpace))

/-- Takes what may stand behind an entry, up to and with the end of its line or of the text. -/
def lineEnd : Reader Unit := do
  spaces
  let _ ← optional comment
  newline <|> atEnd

end LibraryGuard.Toml
