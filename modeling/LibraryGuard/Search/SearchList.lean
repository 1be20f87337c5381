import LibraryGuard.Elf.Object
import LibraryGuard.Error

/-!
# Search lists

A search list holds directories with colons between them. Each one that is not empty gives a candidate, in order: the
directory, with the variable for the executable's own directory replaced, joined with the name of the library. The search of
an executable goes through its newer lists, then through its older ones, and takes the first candidate that is a file.
-/

namespace LibraryGuard

namespace SearchList

/-- The directories of a list as they are written. -/
def entries (list : String) : List (List Char) := (Text.pieces ':' list.toList).filter (· ≠ [])

/-- The two spellings of the variable for the executable's directory. -/
def bracedVariable : List Char := "$\x7bORIGIN\x7d".toList

@[inherit_doc bracedVariable]
def plainVariable : List Char := "$ORIGIN".toList

/-- A directory with the variable replaced: first where it is written in braces, then everywhere else. -/
def expand (origin : Path) (entry : List Char) : List Char :=
  Text.replace plainVariable origin.chars (Text.replace bracedVariable origin.chars entry)

/-- The candidates of a list. -/
def candidates (list : String) (origin : Path) (target : String) : List Path :=
  (entries list).map fun entry => (Path.ofChars (expand origin entry)).join ⟨target⟩

/-- The first candidate of several lists that is a file. -/
def find? (files : Files) (lists : List String) (origin : Path) (target : String) : Option Path :=
  (lists.flatMap fun list => candidates list origin target).find? files.isFile

end SearchList

/-- The search lists of an executable's image. -/
def Elf.searchLists (image : Bytes) : Except Elf.FormatError Elf.SearchLists :=
  if Elf.hasMagic image then
    match Elf.Object.read image with
    | .ok object => .ok object.searchLists
    | .error cause => .error (.malformed cause)
  else .error .badMagic

/-- The directory that an executable is in: a single point for a path without a parent. -/
def Path.origin (executable : Path) : Path := executable.parent?.getD ⟨"."⟩

/-- The library that an executable's search lists lead to. -/
def shippedFor (files : Files) (executable : Path) (target : String) : Except GuardError (Option Path) := do
  let image ← (files.read executable).mapError (.unreadable executable)
  let lists ← (Elf.searchLists image).mapError (.format executable)
  return (SearchList.find? files lists.runpaths executable.origin target).or
    (SearchList.find? files lists.rpaths executable.origin target)

/-- The shipped library at a path: the path itself if it is a file, otherwise the target in it. -/
def shippedLibrary (files : Files) (path : Path) (target : String) : Path :=
  if files.isFile path then path else path.join ⟨target⟩

end LibraryGuard
