import LibraryGuard.Toml.Space

/-!
# Strings of a document

A basic string stands between double quotes and knows escapes; a literal string stands between single quotes and holds every
character as it is. Each has a form between three quotes that may go over lines: a line end right after the opening quotes is
dropped, a line end is read as a line feed, and up to two quotes may stand before the closing ones. In the basic form a
backslash at the end of a line drops the line end with all blanks and line ends after it.
-/

namespace LibraryGuard.Toml

open Text (Reader)
open Text.Reader

/-- A character that a basic string holds as it is. -/
def inBasic (c : Char) : Bool :=
  c = '\t' || (0x20 ≤ c.toNat && c.toNat ≤ 0x7E && c ≠ '"' && c ≠ '\\') || isBeyondAscii c

/-- A character that a literal string holds. -/
def inLiteral (c : Char) : Bool :=
  c = '\t' || (0x20 ≤ c.toNat && c.toNat ≤ 0x7E && c ≠ '\'') || isBeyondAscii c

/-- A hexadecimal digit. -/
def isHexDigit (c : Char) : Bool := c.isDigit || ('a' ≤ c && c ≤ 'f') || ('A' ≤ c && c ≤ 'F')

/-- The value of a hexadecimal digit. -/
def hexDigitValue (c : Char) : Nat :=
  if c.isDigit then c.toNat - '0'.toNat else c.toLower.toNat - 'a'.toNat + 10

/-- The number that digits stand for in a base. -/
def valueInBase (base : Nat) (digits : List Char) : Nat :=
  digits.foldl (fun n c => base * n + hexDigitValue c) 0

/-- Reads so many hexadecimal digits as a code point. -/
def codePoint (digits : Nat) : Reader Char := do
  let n := valueInBase 16 (← exactly digits isHexDigit)
  if n.isValidChar then return Char.ofNat n else failure

/-- Reads an escape. -/
def escape : Reader Char := do
  char '\\'
  match ← satisfying fun _ => true with
  | 'b' => return '\x08'
  | 'f' => return '\x0c'
  | 'n' => return '\n'
  | 'r' => return '\r'
  | 't' => return '\t'
  | 'u' => codePoint 4
  | 'U' => codePoint 8
  | '\\' => return '\\'
  | '"' => return '"'
  | _ => failure

/-- Reads a basic string on one line. -/
def basicString : Reader (List Char) := do
  char '"'
  let parts ← many (while1 inBasic <|> (do return [← escape]))
  char '"'
  return parts.flatten

/-- Reads a literal string on one line. -/
def literalString : Reader (List Char) := do
  char '\''
  let content ← while_ inLiteral
  char '\''
  return content

/-- Reads a line end as a line feed. -/
def lineFeed : Reader (List Char) := do
  newline
  return ['\n']

/-- Drops a backslash, the line end behind it, and all blanks and line ends that follow. -/
def continuation : Reader (List Char) := do
  char '\\'
  spaces
  newline
  let _ ← many (newline <|> (do let _ ← while1 isSpace))
  return []

/-- Reads one or two quotes that do not begin a closing. -/
def innerQuotes (quote : Char) : Reader (List Char) := fun s =>
  match s.span (· = quote) with
  | ([], _) => none
  | (quotes, rest) => if quotes.length < 3 then some (quotes, rest) else none

/-- Reads up to two quotes and the closing ones. -/
def closing (quote : Char) : Reader (List Char) := fun s =>
  let run := s.takeWhile (· = quote)
  let kept := min (run.length - 3) 2
  if run.length < 3 then none else some (run.take kept, s.drop (kept + 3))

/-- Reads a string between three quotes, of the given parts. -/
def longString (quote : Char) (part : Reader (List Char)) : Reader (List Char) := do
  word [quote, quote, quote]
  let _ ← optional newline
  let parts ← many (innerQuotes quote <|> part)
  let last ← closing quote
  return (parts ++ [last]).flatten

/-- Reads a basic string over lines. -/
def longBasicString : Reader (List Char) :=
  longString '"' (while1 inBasic <|> continuation <|> (do return [← escape]) <|> lineFeed)

/-- Reads a literal string over lines. -/
def longLiteralString : Reader (List Char) := longString '\'' (while1 inLiteral <|> lineFeed)

/-- Reads a string. -/
def string : Reader String := do
  let content ← longBasicString <|> basicString <|> longLiteralString <|> literalString
  return String.ofList content

end LibraryGuard.Toml
