import LibraryGuard.Elf.Header

/-!
# Segments

A loadable segment says which addresses its bytes have in memory. `fileOffset?` goes back from an address to the place in
the file through the first loadable segment that holds the address.
-/

namespace LibraryGuard.Elf

/-- What a segment is for. -/
inductive SegmentKind where
  | load | dynamic | other (code : Nat)
  deriving DecidableEq, Repr

/-- The kind with a given code. -/
def SegmentKind.ofCode : Nat → SegmentKind
  | 1 => .load
  | 2 => .dynamic
  | n => .other n

/-- An entry of the segment table. -/
structure Segment where
  kind : SegmentKind
  offset : Nat
  address : Nat
  fileSize : Nat
  memorySize : Nat
  alignment : Nat
  deriving DecidableEq, Repr

namespace Segment

/-- The bytes that an entry of the segment table takes. -/
def entrySize (e : Encoding) : Nat := e.pick 32 56

/-- Reads one entry. -/
def read? (e : Encoding) (image : Bytes) (at_ : Nat) : Option Segment := do
  if !image.fits at_ (entrySize e) then none
  return {
    kind := SegmentKind.ofCode (← e.word? image at_)
    offset := ← e.address? image (at_ + e.pick 4 8)
    address := ← e.address? image (at_ + e.pick 8 16)
    fileSize := ← e.address? image (at_ + e.pick 16 32)
    memorySize := ← e.address? image (at_ + e.pick 20 40)
    alignment := ← e.address? image (at_ + e.pick 28 48) }

/-- Reads the segment table that the header describes. -/
def table (h : Header) (image : Bytes) : Except Malformation (List Segment) := do
  require (h.segmentCount ≤ image.size / entrySize h.encoding) .segmentTable
  demand .segmentTable (records (read? h.encoding image) (entrySize h.encoding) h.segmentCount h.segmentsAt)

/-- Whether a loadable segment holds an address. -/
def holds (s : Segment) (address : Nat) : Bool :=
  s.kind = .load && s.address ≤ address && address - s.address < s.memorySize

/-- The place in the file of an address, if a loadable segment holds it and the place is a 64-bit number. -/
def fileOffset? (segments : List Segment) (address : Nat) : Option Nat := do
  let s ← segments.find? (·.holds address)
  let place := s.offset + (address - s.address)
  if place < UInt64.size then some place else none

end Segment

end LibraryGuard.Elf
