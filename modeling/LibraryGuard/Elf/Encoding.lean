import LibraryGuard.Bytes

/-!
# How an ELF image writes numbers

The first sixteen bytes of an image say how wide its addresses are and in which order its numbers are written. An image that
cannot be read is malformed for one of a few causes, each with its words.
-/

namespace LibraryGuard.Elf

/-- The width of addresses and offsets. -/
inductive WordSize where
  | bits32 | bits64
  deriving DecidableEq, Repr

/-- How the numbers of an image are written. -/
structure Encoding where
  size : WordSize
  order : Bytes.Order
  deriving DecidableEq, Repr

/-- A part of an image that has to lie within the file. -/
inductive Part where
  | header | segmentTable | sectionTable | sectionContent | stringTable | symbols | dynamicEntries | relocations | hashTable
  deriving DecidableEq, Repr

/-- The words for a part. -/
def Part.name : Part → String
  | .header => "file header"
  | .segmentTable => "program headers"
  | .sectionTable => "section headers"
  | .sectionContent => "section content"
  | .stringTable => "string table"
  | .symbols => "symbol table"
  | .dynamicEntries => "dynamic section"
  | .relocations => "relocation table"
  | .hashTable => "symbol hash table"

/-- Why an image cannot be read. -/
inductive Malformation where
  /-- The identification bytes are missing or name an unknown word size or byte order. -/
  | identification
  /-- A part of the image reaches outside of the file. -/
  | outside (part : Part)
  /-- A string table holds bytes that are not UTF-8. -/
  | notText
  /-- A symbol hash table without buckets, first symbol or filter. -/
  | emptyHash
  deriving DecidableEq, Repr

/-- The words for a malformation. -/
def Malformation.message : Malformation → String
  | .identification => "unknown identification"
  | .outside part => part.name ++ " out of bounds"
  | .notText => "string table is not UTF-8"
  | .emptyHash => "invalid symbol hash table"

/-- The four bytes that every image starts with. -/
def magic : List UInt8 := [0x7F, 0x45, 0x4C, 0x46]

/-- Whether a file starts as an image does. -/
def hasMagic (image : Bytes) : Bool := (image.extract 0 4).toList = magic

/-- The word size with a given code. -/
def WordSize.ofCode? : UInt8 → Option WordSize
  | 1 => some .bits32
  | 2 => some .bits64
  | _ => none

/-- The byte order with a given code. -/
def orderOfCode? : UInt8 → Option Bytes.Order
  | 1 => some .little
  | 2 => some .big
  | _ => none

namespace Encoding

/-- The encoding that the sixteen identification bytes of an image name. -/
def read? (image : Bytes) : Option Encoding := do
  if image.size < 16 then none
  return ⟨← WordSize.ofCode? (image.getD 4 0), ← orderOfCode? (image.getD 5 0)⟩

/-- One of two numbers, by word size. -/
def pick (e : Encoding) (narrow wide : Nat) : Nat :=
  match e.size with
  | .bits32 => narrow
  | .bits64 => wide

/-- A two-byte number. -/
def half? (e : Encoding) (b : Bytes) (offset : Nat) : Option Nat := b.nat? e.order offset 2

/-- A four-byte number. -/
def word? (e : Encoding) (b : Bytes) (offset : Nat) : Option Nat := b.nat? e.order offset 4

/-- An address, offset or size: four or eight bytes wide. -/
def address? (e : Encoding) (b : Bytes) (offset : Nat) : Option Nat := b.nat? e.order offset (e.pick 4 8)

end Encoding

/-- Reads as many records as asked for, one after the other. -/
def records {α : Type} (read : Nat → Option α) (stride : Nat) : Nat → Nat → Option (List α)
  | 0, _ => some []
  | count + 1, offset => do
    let record ← read offset
    let rest ← records read stride count (offset + stride)
    return record :: rest

/-- Fails with the part when the stretch it should occupy is not within the file. -/
def require (condition : Bool) (part : Part) : Except Malformation Unit :=
  if condition then .ok () else .error (.outside part)

/-- The value, or the failure that the part is not within the file. -/
def demand {α : Type} (part : Part) : Option α → Except Malformation α
  | some a => .ok a
  | none => .error (.outside part)

end LibraryGuard.Elf
