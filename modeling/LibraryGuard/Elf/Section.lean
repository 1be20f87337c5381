import LibraryGuard.Elf.Header

/-!
# Sections

The section table is absent when its offset is zero. When the header counts no sections, the first entry states their number
as its size. A section's content has to lie within the file unless it has none.
-/

namespace LibraryGuard.Elf

/-- What a section holds. -/
inductive SectionKind where
  | symbols | relocationsWithAddend | withoutBits | relocations | versionDefinitions | versionNeeds | versionSymbols
  | other (code : Nat)
  deriving DecidableEq, Repr

/-- The kind with a given code. -/
def SectionKind.ofCode : Nat → SectionKind
  | 2 => .symbols
  | 4 => .relocationsWithAddend
  | 8 => .withoutBits
  | 9 => .relocations
  | 0x6FFFFFFD => .versionDefinitions
  | 0x6FFFFFFE => .versionNeeds
  | 0x6FFFFFFF => .versionSymbols
  | n => .other n

/-- An entry of the section table. -/
structure Section where
  kind : SectionKind
  address : Nat
  offset : Nat
  size : Nat
  link : Nat
  info : Nat
  entrySize : Nat
  deriving DecidableEq, Repr

namespace Section

/-- The bytes that an entry of the section table takes. -/
def headerSize (e : Encoding) : Nat := e.pick 40 64

/-- Reads one entry. -/
def read? (e : Encoding) (image : Bytes) (at_ : Nat) : Option Section := do
  if !image.fits at_ (headerSize e) then none
  return {
    kind := SectionKind.ofCode (← e.word? image (at_ + 4))
    address := ← e.address? image (at_ + e.pick 12 16)
    offset := ← e.address? image (at_ + e.pick 16 24)
    size := ← e.address? image (at_ + e.pick 20 32)
    link := ← e.word? image (at_ + e.pick 24 40)
    info := ← e.word? image (at_ + e.pick 28 44)
    entrySize := ← e.address? image (at_ + e.pick 36 56) }

/-- Reads the section table that the header describes. -/
def table (h : Header) (image : Bytes) : Except Malformation (List Section) := do
  if h.sectionsAt = 0 then return []
  let stride := headerSize h.encoding
  let first ← demand .sectionTable (read? h.encoding image h.sectionsAt)
  let count := if h.sectionCount = 0 then first.size else h.sectionCount
  require (count ≤ image.size / stride) .sectionTable
  let rest ← demand .sectionTable (records (read? h.encoding image) stride (count - 1) (h.sectionsAt + stride))
  return first :: rest

/-- Whether the content of a section lies within the file, and its addresses within 64 bits. -/
def inBounds (s : Section) (image : Bytes) : Bool :=
  s.kind = .withoutBits || s.size = 0 || (image.fits s.offset s.size && s.address + s.size < UInt64.size)

end Section

end LibraryGuard.Elf
