import LibraryGuard.Elf.Object
import LibraryGuard.Text.Search
import LibraryGuard.Version

/-!
# The newest version that a library defines

A library lists the interface versions it defines in a chain of definition records, each with a chain of name records. Both
chains are walked up to the announced counts, and end early where a link is zero or a record does not fit. Of the names that
start with a family's common part, what follows is read as a version; the newest of these is the answer, and `0.0.0` if there
is none.
-/

namespace LibraryGuard.Elf

/-- Why the newest version of an image cannot be told. -/
inductive FormatError where
  | badMagic
  | malformed (cause : Malformation)
  | missingVersionDefinitions
  | nameOutOfRange (offset : Nat)
  deriving DecidableEq, Repr

/-- The message of a format error. -/
def FormatError.message : FormatError → String
  | .badMagic => "not an ELF image (bad magic)"
  | .malformed cause => "malformed ELF image: " ++ cause.message
  | .missingVersionDefinitions => "no .gnu.version_d section"
  | .nameOutOfRange offset => "version definition name offset " ++ toString offset ++ " is outside its string table"

/-- A definition record: how many name records it has, where they start, and where the next definition is, both counted from
the record. -/
structure VersionDefinition where
  nameCount : Nat
  namesAt : Nat
  next : Nat
  deriving DecidableEq, Repr

/-- Reads the definition record at an offset of the section. -/
def VersionDefinition.read? (e : Encoding) (content : Bytes) (offset : Nat) : Option VersionDefinition := do
  return ⟨← e.half? content (offset + 6), ← e.word? content (offset + 12), ← e.word? content (offset + 16)⟩

/-- A name record: the offset of the name in the string table, and where the next name record is, counted from this one. -/
structure VersionName where
  name : Nat
  next : Nat
  deriving DecidableEq, Repr

/-- Reads the name record at an offset of the section. -/
def VersionName.read? (e : Encoding) (content : Bytes) (offset : Nat) : Option VersionName := do
  return ⟨← e.word? content offset, ← e.word? content (offset + 4)⟩

/-- The names reached by the chain of at most the given number of name records from an offset on. -/
def nameChain (e : Encoding) (content : Bytes) : Nat → Nat → List Nat
  | 0, _ => []
  | count + 1, offset =>
    match VersionName.read? e content offset with
    | none => []
    | some n => n.name :: if n.next = 0 then [] else nameChain e content count (offset + n.next)

/-- The names reached by the chain of at most the given number of definition records from an offset on. A definition whose
names would start at or past the end of the section ends the chain. -/
def definitionChain (e : Encoding) (content : Bytes) : Nat → Nat → List Nat
  | 0, _ => []
  | count + 1, offset =>
    match VersionDefinition.read? e content offset with
    | none => []
    | some d =>
      if content.size ≤ offset + d.namesAt then []
      else
        nameChain e content d.nameCount (offset + d.namesAt) ++
          if d.next = 0 then [] else definitionChain e content count (offset + d.next)

/-- The first section of version definitions. -/
def Object.versionSection? (o : Object) : Option Section := o.sections.find? (·.kind = .versionDefinitions)

/-- The offsets of all names that the chains of a section of version definitions reach, in order. -/
def reachedNames (e : Encoding) (image : Bytes) (s : Section) : List Nat :=
  definitionChain e (image.extract s.offset (s.offset + s.size)) s.info 0

/-- What follows the common part of a family in a name. -/
def afterFamily? (family name : String) : Option String := (Text.after? family.toList name.toList).map String.ofList

/-- The newest version among names, starting from the given one. The first name that is not in the table ends it. -/
def newestOf (table : StringTable) (family : String) : List Nat → Version → Logged (Except FormatError Version)
  | [], best => pure (.ok best)
  | offset :: rest, best =>
    match table.get? offset with
    | none => pure (.error (.nameOutOfRange offset))
    | some name =>
      match afterFamily? family name with
      | none => newestOf table family rest best
      | some text => do
        let v ← Version.parseLenient text
        newestOf table family rest (max best v)

/-- The section of version definitions of an image, and its string table. -/
def versionTable (image : Bytes) : Except FormatError (Encoding × Section × StringTable) := do
  if !hasMagic image then throw .badMagic
  let object ← (Object.read image).mapError .malformed
  let some definitions := object.versionSection? | throw .missingVersionDefinitions
  let some linked := object.sections[definitions.link]? | throw .missingVersionDefinitions
  let table ← (StringTable.read image linked.offset linked.size).mapError .malformed
  return (object.header.encoding, definitions, table)

/-- The newest version of a family that an image defines. -/
def newestVersion (image : Bytes) (family : String) : Logged (Except FormatError Version) :=
  match versionTable image with
  | .error e => pure (.error e)
  | .ok (e, definitions, table) => newestOf table family (reachedNames e image definitions) .zero

end LibraryGuard.Elf
