import LibraryGuard.Text.Blank

/-!
# Paths as text

A path is kept as it was written. Slashes at its end and `.` components at its end say nothing, so they are skipped before
the last component is read. `.` and `..` are no file names. Joining writes one slash between the two parts unless the first
is empty or ends in one; an absolute second part stands alone.

A path is a text here. The system allows names that are no UTF-8; those lie outside of the library.
-/

namespace LibraryGuard

/-- A path, as written. -/
structure Path where
  text : String
  deriving DecidableEq, Repr

namespace Path

instance : Inhabited Path := ⟨⟨""⟩⟩

instance : ToString Path := ⟨text⟩

/-- The characters of a path. -/
def chars (p : Path) : List Char := p.text.toList

/-- A path from its characters. -/
def ofChars (s : List Char) : Path := ⟨String.ofList s⟩

/-- Whether a path starts at the root. -/
def isAbsolute (p : Path) : Bool := p.chars.head? = some '/'

/-- Removes the slashes and the `.` components from the end of a path that is read backwards. -/
def dropTrailing : List Char → List Char
  | '/' :: r => dropTrailing r
  | '.' :: '/' :: r => dropTrailing r
  | r => r

/-- The path without the slashes and `.` components at its end. -/
def trimmed (p : Path) : List Char := (dropTrailing p.chars.reverse).reverse

/-- The part of a text after its last slash. -/
def afterLastSlash (s : List Char) : List Char := (s.reverse.takeWhile (· != '/')).reverse

/-- The last component of a path, if it is a file name. -/
def fileName? (p : Path) : Option String :=
  let last := afterLastSlash p.trimmed
  if last = [] ∨ last = ['.'] ∨ last = ['.', '.'] then none else some (String.ofList last)

/-- Whether the last component of a path is exactly the given name. -/
def isNamed (p : Path) (name : String) : Bool := p.fileName? = some name

/-- The path without its last component. It is empty for a single relative component, and a path that consists of slashes or
is empty has none. -/
def parent? (p : Path) : Option Path :=
  match p.trimmed with
  | [] => none
  | t =>
    match t.reverse.dropWhile (· != '/') with
    | [] => some ⟨""⟩
    | before =>
      match dropTrailing before with
      | [] => some ⟨"/"⟩
      | d => some (ofChars d.reverse)

/-- What follows the last point of the file name. A name that starts with its only point has no extension. -/
def extension? (p : Path) : Option String :=
  match p.fileName? with
  | none => none
  | some name =>
    let reversed := name.toList.reverse
    match reversed.dropWhile (· != '.') with
    | [] | ['.'] => none
    | _ => some (String.ofList (reversed.takeWhile (· != '.')).reverse)

/-- Whether a path has a part before its last component. -/
def hasDirectory (p : Path) : Bool :=
  match p.parent? with
  | some d => d.text != ""
  | none => false

/-- The second path seen from the first one. -/
def join (p q : Path) : Path :=
  if q.isAbsolute then q
  else if p.text = "" ∨ p.chars.getLast? = some '/' then ⟨p.text ++ q.text⟩
  else ⟨p.text ++ "/" ++ q.text⟩

end Path

end LibraryGuard
