import LibraryGuard.Elf.NewestVersion

/-!
# Images that define versions

`VersionImage.encode` writes the plainest image of a library that defines some names: the header, the names in a table, one
definition with one name record for each of them, the names of the sections, and the table of sections. Nothing else is in it,
and no segment.
-/

namespace LibraryGuard.Elf.VersionImage

/-- The bytes of a number in the little-endian order. -/
def number : Nat → Nat → List UInt8
  | 0, _ => []
  | width + 1, n => UInt8.ofNat n :: number width (n / 256)

/-- The zeros that fill up a length to a multiple. -/
def padding (multiple length : Nat) : List UInt8 := List.replicate ((multiple - length % multiple) % multiple) 0

/-- The bytes of a text with a zero behind them. -/
def terminated (s : String) : List UInt8 := s.toUTF8.toList ++ [0]

/-- The table of names. It starts with the empty name. -/
def nameTable (names : List String) : List UInt8 := 0 :: names.flatMap terminated

/-- The offsets of names in a table, of which the first one stands at the given offset. -/
def nameOffsets : Nat → List String → List Nat
  | _, [] => []
  | offset, name :: rest => offset :: nameOffsets (offset + name.utf8ByteSize + 1) rest

/-- The size of a definition with its name record. -/
def definitionSize : Nat := 28

/-- A definition with one name record right behind it: its flags and index, the step to the next one, and the name. -/
def definition (flags index step name : Nat) : List UInt8 :=
  number 2 1 ++ number 2 flags ++ number 2 index ++ number 2 1 ++ number 4 0 ++ number 4 20 ++ number 4 step ++
    number 4 name ++ number 4 0

/-- The chain of definitions of the names at some offsets, the first of which has the given index. -/
def definitions : Nat → List Nat → List UInt8
  | _, [] => []
  | index, name :: rest =>
    definition (if index = 1 then 1 else 0) index (if rest.isEmpty then 0 else definitionSize) name ++
      definitions (index + 1) rest

/-- The names of the sections. -/
def sectionNames : List UInt8 :=
  0 :: (terminated ".dynstr" ++ terminated ".gnu.version_d" ++ terminated ".shstrtab")

/-- An entry of the table of sections. -/
def sectionEntry (name kind offset size link info alignment : Nat) : List UInt8 :=
  number 4 name ++ number 4 kind ++ number 8 0 ++ number 8 0 ++ number 8 offset ++ number 8 size ++ number 4 link ++
    number 4 info ++ number 8 alignment ++ number 8 0

/-- The size of the header, and of an entry of the table of sections. -/
def headerSize : Nat := 64

/-- The header of an image whose table of four sections starts at an offset. -/
def header (sectionsAt : Nat) : List UInt8 :=
  [0x7F, 0x45, 0x4C, 0x46, 2, 1, 1] ++ List.replicate 9 0 ++ number 2 3 ++ number 2 62 ++ number 4 1 ++ number 8 0 ++
    number 8 0 ++ number 8 sectionsAt ++ number 4 0 ++ number 2 headerSize ++ number 2 56 ++ number 2 0 ++
    number 2 headerSize ++ number 2 4 ++ number 2 3

/-- The names, the definitions and the names of the sections, with the zeros between them, as they follow the header. -/
def content (names : List String) : List UInt8 :=
  let table := nameTable names
  let gap := padding 4 (headerSize + table.length)
  let records := definitions 1 (nameOffsets 1 names)
  let body := table ++ gap ++ records ++ sectionNames
  body ++ padding 8 (headerSize + body.length)

/-- The table of sections. -/
def sectionTable (names : List String) : List UInt8 :=
  let table := nameTable names
  let recordsAt := headerSize + table.length + (padding 4 (headerSize + table.length)).length
  let records := definitions 1 (nameOffsets 1 names)
  List.replicate headerSize 0 ++ sectionEntry 1 3 headerSize table.length 0 0 1 ++
    sectionEntry 9 0x6FFFFFFD recordsAt records.length 1 names.length 4 ++
    sectionEntry 24 3 (recordsAt + records.length) sectionNames.length 0 0 1

/-- The image that defines some names. -/
def encode (names : List String) : Bytes :=
  let body := content names
  (header (headerSize + body.length) ++ body ++ sectionTable names).toArray

end LibraryGuard.Elf.VersionImage
