import LibraryGuard.Elf.Dynamic
import LibraryGuard.Elf.Section

/-!
# Reading a whole image

`Object.read` accepts an image when every table that it describes lies within the file and every string table it reads is
UTF-8: headers, the sections' names, the last symbol table with its strings, the dynamic section, relocation sections, and
the first section of each of the three kinds about versions.
-/

namespace LibraryGuard.Elf

/-- What is kept of an image. -/
structure Object where
  header : Header
  segments : List Segment
  sections : List Section
  searchLists : SearchLists
  deriving DecidableEq, Repr

namespace Object

/-- The index that stands for the first section's link. -/
def extendedIndex : Nat := 0xFFFF

/-- The section that an index names, if there is one. -/
def sectionAt? (sections : List Section) (index : Nat) : Option Section :=
  if index = extendedIndex then (sections.head?.map (·.link)).bind fun i => sections[i]? else sections[index]?

/-- The string table in the section that an index names; an empty one where there is no such section. -/
def stringsAt (image : Bytes) (sections : List Section) (index : Nat) : Except Malformation StringTable :=
  match sectionAt? sections index with
  | none => .ok .empty
  | some s => do
    require (s.inBounds image) .sectionContent
    StringTable.read image s.offset s.size

/-- Checks the last symbol table and its strings. -/
def checkSymbols (e : Encoding) (image : Bytes) (sections : List Section) : Except Malformation Unit :=
  match sections.reverse.find? (·.kind = .symbols) with
  | none => .ok ()
  | some s => do
    require (Dynamic.symbolsFit e image s.offset (s.size / s.entrySize)) .symbols
    let _ ← stringsAt image sections s.link

/-- Reads the search lists of the dynamic section, which are empty without one. -/
def readSearchLists (h : Header) (image : Bytes) (segments : List Segment) : Except Malformation SearchLists := do
  match ← DynamicEntry.table h.encoding image segments with
  | none => return ⟨[], []⟩
  | some entries => Dynamic.searchLists h image segments entries

/-- Whether every relocation section lies within the file. -/
def relocationsInBounds (image : Bytes) (sections : List Section) : Bool :=
  sections.all fun s => (s.kind ≠ .relocations ∧ s.kind ≠ .relocationsWithAddend) || s.inBounds image

/-- Whether the first section of a kind, if there is one, lies within the file. -/
def firstFits (image : Bytes) (sections : List Section) (kind : SectionKind) : Bool :=
  (sections.find? (·.kind = kind)).all fun s => image.fits s.offset s.size

/-- Reads an image. -/
def read (image : Bytes) : Except Malformation Object := do
  let header ← Header.read image
  let segments ← Segment.table header image
  let sections ← Section.table header image
  let _ ← stringsAt image sections header.namesIndex
  checkSymbols header.encoding image sections
  let lists ← readSearchLists header image segments
  require (relocationsInBounds image sections) .relocations
  require (firstFits image sections .versionSymbols) .sectionContent
  require (firstFits image sections .versionDefinitions) .sectionContent
  require (firstFits image sections .versionNeeds) .sectionContent
  return ⟨header, segments, sections, lists⟩

end Object

end LibraryGuard.Elf
