import LibraryGuard.Toml.Moment
import LibraryGuard.Toml.Tree

/-!
# Reading a document

A document is a sequence of entries, headers, comments and empty lines. Values nest less than eighty deep and keys have fewer
than eighty parts. `read?` gives the entries of the document's table, in order, or nothing for a text that is no document.
-/

namespace LibraryGuard.Toml

open Text (Reader)
open Text.Reader

/-- The number of levels of nesting, and of parts of a key, that a document has to stay below. -/
def depthLimit : Nat := 80

/-- A character of a key without quotes. -/
def inBareKey (c : Char) : Bool := c.isAlphanum || c = '-' || c = '_'

/-- Reads one part of a key. -/
def keyPart : Reader String := do
  spaces
  let part ← basicString <|> literalString <|> while1 inBareKey
  spaces
  return String.ofList part

/-- Reads a key as the parts before its last one, and the last one. -/
def key : Reader (List String × String) := do
  let parts ← separated keyPart (char '.')
  match parts.getLast? with
  | some last => if parts.length < depthLimit then return (parts.dropLast, last) else failure
  | none => failure

/-- Reads an array of the given values. -/
def array (item : Reader Value) : Reader Value := do
  char '['
  let items ← separated (do
    blankLines
    let v ← item
    blankLines
    return v) (char ',')
  if !items.isEmpty then
    let _ ← optional (char ',')
  blankLines
  char ']'
  return .array items

/-- Reads a table on one line, of the given values. -/
def inlineTable (item : Reader Value) : Reader Value := do
  char '\x7b'
  let entries ← separated (do
    let (path, last) ← key
    char '='
    spaces
    let v ← item
    spaces
    return (path, last, v)) (char ',')
  spaces
  char '\x7d'
  match entries.foldlM (fun n (path, last, v) => n.insert path last v) (Node.empty .defined) with
  | some n => return n.value
  | none => failure

/-- Reads a value without parts. -/
def plainValue : Reader Value :=
  (do return .string (← string)) <|> moment <|> decimalFloat <|> specialFloat <|> integer <|>
    (do word ['t', 'r', 'u', 'e']; return .boolean true) <|>
    (do word ['f', 'a', 'l', 's', 'e']; return .boolean false)

/-- Reads a value with at most the given number of levels below it. -/
def value : Nat → Reader Value
  | 0 => plainValue
  | depth + 1 => plainValue <|> array (value depth) <|> inlineTable (value depth)

/-- A document as far as it is read: its tables, and the path of the table that the last header opened. -/
structure Progress where
  root : Node := .empty .defined
  opened : List String := []
  deriving Repr

/-- What stands on a line. -/
inductive Line where
  | nothing
  | entry (path : List String) (key : String) (value : Value)
  | header (isArray : Bool) (path : List String)
  deriving Repr

/-- Reads a header between its brackets. -/
def headerBetween (isArray : Bool) (left right : List Char) : Reader Line := do
  word left
  let (path, last) ← key
  word right
  lineEnd
  return .header isArray (path ++ [last])

/-- Reads a line. -/
def line : Reader Line := do
  spaces
  match ← peek? with
  | none => failure
  | some '\n' | some '\r' =>
    newline
    return .nothing
  | some '#' =>
    comment
    newline <|> atEnd
    return .nothing
  | some '[' => headerBetween true ['[', '['] [']', ']'] <|> headerBetween false ['['] [']']
  | some _ =>
    let (path, last) ← key
    char '='
    spaces
    let v ← value (depthLimit - 1)
    lineEnd
    return .entry path last v

/-- The document after one more line. -/
def Progress.add (p : Progress) : Line → Option Progress
  | .nothing => some p
  | .entry path key v => (p.root.insertUnder p.opened path key v).map fun root => { p with root := root }
  | .header isArray path => (p.root.header isArray path).map fun root => ⟨root, path⟩

/-- Reads the lines of a document. -/
def lines : Reader (List Line) := do
  let _ ← optional (char '\uFEFF')
  let ls ← many line
  spaces
  return ls

/-- The entries of the document that a text is, if it is one. -/
def read? (text : String) : Option (List (String × Value)) := do
  let ls ← lines.readAll? text.toList
  let p ← ls.foldlM Progress.add {}
  match p.root.value with
  | .table entries => return entries
  | _ => none

end LibraryGuard.Toml
