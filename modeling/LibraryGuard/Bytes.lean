/-!
# Bytes at offsets

A file's content is an array of bytes. `slice?` takes a stretch that lies within it, and `nat?` reads a stretch as an
unsigned number in either byte order. Offsets and lengths are natural numbers, so a sum of two never wraps.
-/

namespace LibraryGuard

/-- The content of a file. -/
abbrev Bytes := Array UInt8

namespace Bytes

/-- Whether the first byte of a number is its least or its most significant one. -/
inductive Order where
  | little | big
  deriving DecidableEq, Repr

/-- The bytes of a text. -/
def ofText (s : String) : Bytes := s.toUTF8.data

/-- Whether a stretch lies within the content. An empty stretch may stand at its end. -/
def fits (b : Bytes) (offset length : Nat) : Bool := offset + length ≤ b.size

/-- A stretch of the content, if it lies within it. -/
def slice? (b : Bytes) (offset length : Nat) : Option Bytes :=
  if b.fits offset length then some (b.extract offset (offset + length)) else none

/-- The unsigned number that bytes stand for. -/
def value : Order → List UInt8 → Nat
  | .little, bytes => bytes.foldr (fun x n => n * 256 + x.toNat) 0
  | .big, bytes => bytes.foldl (fun n x => n * 256 + x.toNat) 0

/-- The unsigned number of the given width at an offset. -/
def nat? (b : Bytes) (order : Order) (offset width : Nat) : Option Nat :=
  (slice? b offset width).map fun s => value order s.toList

theorem fits_of_nat? {b : Bytes} {order : Order} {offset width n : Nat} (h : nat? b order offset width = some n) :
    offset + width ≤ b.size := by
  simp only [nat?, slice?, Option.map_eq_some_iff] at h
  obtain ⟨s, hs, -⟩ := h
  split at hs
  next hf => simpa [fits] using hf
  next => simp at hs

end Bytes

end LibraryGuard
