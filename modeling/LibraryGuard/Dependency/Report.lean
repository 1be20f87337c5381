import LibraryGuard.Path
import LibraryGuard.Text.Search

/-!
# Reports of dependencies

A report names one dependency on a line. A line with an arrow has the name before it, and the place behind it if what follows
starts with a slash. A line without one counts only if it states an address: its first word is the place if it starts with a
slash, and the name otherwise. Blanks at the ends of a line say nothing, and a line that gives no name is skipped.
-/

namespace LibraryGuard.Dependency

/-- One file needs a library, which the linker would take from the given place. -/
structure Edge where
  containing : Path
  name : String
  resolved : Option Path
  deriving DecidableEq, Repr

/-- Whether an edge leads to a library: by its name, or by the name of its place. -/
def Edge.leadsTo (e : Edge) (target : String) : Bool := e.name = target || e.resolved.any (·.isNamed target)

/-- The arrow between a name and its place. -/
def arrow : List Char := "=>".toList

/-- What an address starts with. -/
def addressMark : List Char := "(0x".toList

/-- A word that is the place of a library. -/
def isPlace (word : List Char) : Bool := word.head? = some '/'

/-- The name and the place that a trimmed line gives. -/
def nameAndPlace? (line : List Char) : Option (List Char × Option Path) :=
  match Text.cut? arrow line with
  | some (before, after) => some (Text.trim before, ((Text.firstWord? after).filter isPlace).map Path.ofChars)
  | none => do
    let word ← Text.firstWord? line
    if !Text.contains addressMark line then none
    if isPlace word then
      let name ← (Path.ofChars word).fileName?
      return (name.toList, some (Path.ofChars word))
    return (word, none)

/-- The edge that a line gives. -/
def edge? (containing : Path) (line : List Char) : Option Edge := do
  let (name, resolved) ← nameAndPlace? (Text.trim line)
  if name.isEmpty then none
  return ⟨containing, String.ofList name, resolved⟩

/-- The edges that a report gives, in order. -/
def parseReport (containing : Path) (report : String) : List Edge :=
  (Text.lines report.toList).filterMap (edge? containing)

end LibraryGuard.Dependency
