import LibraryGuard.Elf.Encoding
import LibraryGuard.Text.Utf8

/-!
# String tables

A string table is a stretch of the file in which a NUL byte ends each string; the last one may end with the table. The table
is read only if it is UTF-8 throughout. A name is looked up by the offset of its first byte, which may also be in the middle
of a longer string.
-/

namespace LibraryGuard.Elf

/-- The bytes of a string table. -/
structure StringTable where
  bytes : List UInt8
  deriving DecidableEq, Repr

namespace StringTable

/-- The table without strings. -/
def empty : StringTable := ⟨[]⟩

/-- Reads the table at a stretch of the file. -/
def read (image : Bytes) (offset size : Nat) : Except Malformation StringTable := do
  let content ← demand .stringTable (image.slice? offset size)
  match Text.Utf8.decode content.toList with
  | some _ => return ⟨content.toList⟩
  | none => .error .notText

/-- Whether a string can start at an offset: within the table, or just past a last string that no NUL ends. -/
def inRange (t : StringTable) (offset : Nat) : Bool :=
  offset < t.bytes.length || (offset = t.bytes.length && t.bytes.getLast?.any (· ≠ 0))

/-- The string at an offset, up to its NUL byte. There is none outside of the table or inside a character. -/
def get? (t : StringTable) (offset : Nat) : Option String :=
  if t.inRange offset then
    (Text.Utf8.decode ((t.bytes.drop offset).takeWhile (· ≠ 0))).map String.ofList
  else none

end StringTable

end LibraryGuard.Elf
