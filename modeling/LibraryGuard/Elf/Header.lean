import LibraryGuard.Elf.Encoding

/-!
# The file header

The header says where the segment table and the section table are, how many entries they have, and which section holds the
sections' names. The sizes of entries that it states are not used: the word size fixes them.
-/

namespace LibraryGuard.Elf

/-- What the header of an image says. -/
structure Header where
  encoding : Encoding
  machine : Nat
  segmentsAt : Nat
  sectionsAt : Nat
  segmentCount : Nat
  sectionCount : Nat
  namesIndex : Nat
  deriving DecidableEq, Repr

namespace Header

/-- The fields of a header in a known encoding. -/
def fields? (e : Encoding) (image : Bytes) : Option Header := do
  if !image.fits 0 (e.pick 52 64) then none
  return {
    encoding := e
    machine := ← e.half? image 18
    segmentsAt := ← e.address? image (e.pick 28 32)
    sectionsAt := ← e.address? image (e.pick 32 40)
    segmentCount := ← e.half? image (e.pick 44 56)
    sectionCount := ← e.half? image (e.pick 48 60)
    namesIndex := ← e.half? image (e.pick 50 62) }

/-- Reads the header. -/
def read (image : Bytes) : Except Malformation Header :=
  match Encoding.read? image with
  | none => .error .identification
  | some e => demand .header (fields? e image)

end Header

end LibraryGuard.Elf
