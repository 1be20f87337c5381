import LibraryGuard.Config
import LibraryGuard.Search.Selection

/-!
# The forms of the commands

A command has a name, at most one argument, and options, each of which is a switch or takes a value of a certain kind.
The form of a command says what its arguments may be, and its help is printed from it.
-/

namespace LibraryGuard.CommandLine

/-- The name of the program. -/
def programName : String := "cxxguard"

/-- The version of the program. -/
def programVersion : String := "0.1.0"

/-- What a value has to be. -/
inductive ValueKind where
  | text
  /-- A path, which is not empty. -/
  | path
  /-- A number below 2 ^ 64, perhaps with a plus sign. -/
  | count
  /-- The name of a part of the linker's search. -/
  | origin
  deriving DecidableEq, Repr

/-- The number that a text stands for. -/
def count? (s : String) : Option Nat :=
  let digits := match s.toList with
    | '+' :: r => r
    | r => r
  if digits.isEmpty || !digits.all Version.isDigit then none
  else if Version.decimal digits < UInt64.size then some (Version.decimal digits) else none

/-- The parts of the linker's search by their names. -/
def originNames : List (String × SearchOrigin) :=
  [("original", .requested), ("library-path", .libraryPath), ("runpath", .runPath), ("cache", .cache),
    ("default", .builtIn), ("secure", .secure)]

/-- The part of the linker's search that has a name. -/
def origin? (s : String) : Option SearchOrigin := originNames.lookup s

/-- Whether a text is a value of a kind. -/
def ValueKind.accepts : ValueKind → String → Bool
  | .text, _ => true
  | .path, s => s ≠ ""
  | .count, s => (count? s).isSome
  | .origin, s => (origin? s).isSome

/-- An option, which is a switch unless it takes a value of some kind. -/
structure OptionForm where
  name : String
  kind : Option ValueKind
  default : Option String := none
  isRequired : Bool := false
  help : String := ""

/-- An argument that is a path. -/
structure ArgumentForm where
  name : String
  help : String := ""

/-- A command. -/
structure Form where
  name : String
  about : String
  argument : Option ArgumentForm := none
  options : List OptionForm

/-- The option for the name of the guarded library. -/
def targetOption (name : String) : OptionForm := { name := name, kind := some .text, default := some Config.defaultTarget }

/-- The option for the family of versions. -/
def familyOption : OptionForm := { name := "prefix", kind := some .text, default := some Config.defaultFamily }

/-- The commands. -/
inductive Verb where
  | probe | version | dependencies | locate | select | check
  deriving DecidableEq, Repr

/-- The form of a command. -/
def Verb.form : Verb → Form
  | .probe => {
      name := "probe"
      about := "Load a library in this process and print where the linker found it"
      options := [targetOption "library"] }
  | .version => {
      name := "version"
      about := "Print the highest version definition of an ELF shared object"
      argument := some { name := "ELF" }
      options := [familyOption,
        { name := "packed", kind := none, help := "Print as 0x00AABBCC hex instead of M.N.P" }] }
  | .dependencies => {
      name := "deps"
      about := "List a file's dependencies and whether they pull in the target"
      argument := some { name := "ELF" }
      options := [targetOption "target",
        { name := "lister", kind := some .path, default := some "ldd",
          help := "ldd-compatible program used to list dependencies" },
        { name := "max-depth", kind := some .count, default := some "4" }] }
  | .locate => {
      name := "locate"
      about := "Find the shipped library through an executable's RUNPATH/RPATH"
      argument := some { name := "EXECUTABLE" }
      options := [targetOption "target"] }
  | .select => {
      name := "select"
      about := "Show what search-time selection would do with one linker candidate"
      argument := some { name := "CANDIDATE", help := "Path the linker is about to try" }
      options := [
        { name := "shipped", kind := some .path, isRequired := true,
          help := "Shipped library file, or the directory holding it" },
        { name := "origin", kind := some .origin, default := some "default" },
        targetOption "target", familyOption] }
  | .check => {
      name := "check"
      about := "Compare the system copy with a shipped one and act on the result"
      argument := some { name := "SHIPPED", help := "Shipped library file, or the directory holding it" }
      options := [
        { name := "config", kind := some .path, help := "TOML configuration (defaults to $CXXGUARD_CONFIG)" }] }

/-- All commands, in the order in which they are listed. -/
def Verb.all : List Verb := [.probe, .version, .dependencies, .locate, .select, .check]

/-- The command with a name. -/
def Verb.ofName? (name : String) : Option Verb := Verb.all.find? (·.form.name = name)

end LibraryGuard.CommandLine
