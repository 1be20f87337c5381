import LibraryGuard.Elf.Segment
import LibraryGuard.Elf.StringTable

/-!
# The dynamic section

The first dynamic segment is a list of tagged values, up to a null entry. Of a tag that occurs more than once the last value
counts, except for the search lists, of which all count. Reading checks that every table the entries point to lies within
the file: strings, relocations and symbols. The number of symbols comes from a hash table, and is at least what the
relocations name.
-/

namespace LibraryGuard.Elf

/-- A tagged value. -/
structure DynamicEntry where
  tag : Nat
  value : Nat
  deriving DecidableEq, Repr

/-- The tags that are read. -/
inductive DynamicTag where
  | null | jumpRelocationsSize | hash | strings | symbols | relocationsWithAddend | relocationsWithAddendSize | stringsSize
  | rpath | relocations | relocationsSize | jumpRelocationsKind | jumpRelocations | runpath | gnuHash
  deriving DecidableEq, Repr

/-- The code of a tag. -/
def DynamicTag.code : DynamicTag → Nat
  | .null => 0
  | .jumpRelocationsSize => 2
  | .hash => 4
  | .strings => 5
  | .symbols => 6
  | .relocationsWithAddend => 7
  | .relocationsWithAddendSize => 8
  | .stringsSize => 10
  | .rpath => 15
  | .relocations => 17
  | .relocationsSize => 18
  | .jumpRelocationsKind => 20
  | .jumpRelocations => 23
  | .runpath => 29
  | .gnuHash => 0x6FFFFEF5

/-- The entries of a list up to its null entry. -/
def DynamicEntry.untilNull : List DynamicEntry → List DynamicEntry
  | [] => []
  | d :: rest => if d.tag = DynamicTag.null.code then [d] else d :: untilNull rest

/-- Reads one entry. -/
def DynamicEntry.read? (e : Encoding) (image : Bytes) (at_ : Nat) : Option DynamicEntry := do
  return ⟨← e.address? image at_, ← e.address? image (at_ + e.pick 4 8)⟩

/-- The entries of the first dynamic segment; nothing without one. -/
def DynamicEntry.table (e : Encoding) (image : Bytes) (segments : List Segment) :
    Except Malformation (Option (List DynamicEntry)) :=
  match segments.find? (·.kind = .dynamic) with
  | none => .ok none
  | some s => do
    require (s.fileSize = 0 || image.fits s.offset s.fileSize) .dynamicEntries
    let stride := e.pick 8 16
    let all ← demand .dynamicEntries (records (read? e image) stride (s.fileSize / stride) s.offset)
    return some (untilNull all)

/-- The search lists that an image names. -/
structure SearchLists where
  runpaths : List String
  rpaths : List String
  deriving DecidableEq, Repr

namespace Dynamic

/-- The last value with a tag. -/
def last? (entries : List DynamicEntry) (tag : DynamicTag) : Option Nat :=
  (entries.reverse.find? (·.tag = tag.code)).map (·.value)

/-- The last value with a tag, or zero. -/
def last (entries : List DynamicEntry) (tag : DynamicTag) : Nat := (last? entries tag).getD 0

/-- The place in the file of the address that a tag names, if there is one. -/
def place? (segments : List Segment) (entries : List DynamicEntry) (tag : DynamicTag) : Option Nat :=
  (last? entries tag).bind (Segment.fileOffset? segments)

/-- The place in the file of the address that a tag names, or zero. -/
def place (segments : List Segment) (entries : List DynamicEntry) (tag : DynamicTag) : Nat :=
  (place? segments entries tag).getD 0

/-- All strings that entries with a tag name. -/
def strings (t : StringTable) (entries : List DynamicEntry) (tag : DynamicTag) : List String :=
  entries.filterMap fun d => if d.tag = tag.code then t.get? d.value else none

/-- The symbol that a relocation's information word names. -/
def symbolOf (e : Encoding) (info : Nat) : Nat := e.pick (info >>> 8) (info >>> 32)

/-- The largest symbol that the relocations of a table name. -/
def largestSymbol (e : Encoding) (image : Bytes) (place size : Nat) (withAddend : Bool) : Except Malformation Nat := do
  if size = 0 then return 0
  require (image.fits place size) .relocations
  let stride := if withAddend then e.pick 12 24 else e.pick 8 16
  let infos ← demand .relocations
    (records (fun o => e.address? image (o + e.pick 4 8)) stride (size / stride) place)
  return infos.foldl (fun n info => max n (symbolOf e info)) 0

/-- The largest of as many words as asked for. -/
def largestWord? (e : Encoding) (image : Bytes) : Nat → Nat → Nat → Option Nat
  | 0, _, largest => some largest
  | count + 1, offset, largest =>
    match e.word? image offset with
    | none => none
    | some w => largestWord? e image count (offset + 4) (max largest w)

/-- Follows a chain of hashes to its end, which an odd hash marks, counting symbols on the way. -/
def chainEnd? (e : Encoding) (image : Bytes) (offset count : Nat) : Option Nat :=
  match h : e.word? image offset with
  | none => none
  | some hash => if hash % 2 = 1 then some (count + 1) else chainEnd? e image (offset + 4) (count + 1)
termination_by image.size - offset
decreasing_by
  have hfit : offset + 4 ≤ image.size := Bytes.fits_of_nat? h
  omega

/-- The number of symbols by a hash table of the newer kind. -/
def gnuHashCount (e : Encoding) (image : Bytes) (place : Nat) : Except Malformation Nat := do
  let buckets ← demand .hashTable (e.word? image place)
  let first ← demand .hashTable (e.word? image (place + 4))
  let filter ← demand .hashTable (e.word? image (place + 8))
  if buckets = 0 ∨ first = 0 ∨ filter = 0 then throw .emptyHash
  let bucketsAt := place + 16 + filter * e.pick 4 8
  let largest ← demand .hashTable (largestWord? e image buckets bucketsAt 0)
  if largest < first then return 0
  demand .hashTable (chainEnd? e image (bucketsAt + buckets * 4 + (largest - first) * 4) largest)

/-- The machines whose hash tables of the older kind have wide entries in a 64-bit image. -/
def hasWideHash (machine : Nat) : Bool := machine = 0x9026 || machine = 22

/-- The number of symbols by a hash table of the older kind. -/
def hashCount (h : Header) (image : Bytes) (place : Nat) : Except Malformation Nat :=
  let width := if hasWideHash h.machine && h.encoding.size = .bits64 then 8 else 4
  demand .hashTable (image.nat? h.encoding.order (place + 4) width)

/-- The number of symbols by whichever hash table there is. -/
def hashedSymbols (h : Header) (image : Bytes) (segments : List Segment) (entries : List DynamicEntry) :
    Except Malformation Nat :=
  match place? segments entries .gnuHash with
  | some p => gnuHashCount h.encoding image p
  | none =>
    match place? segments entries .hash with
    | some p => hashCount h image p
    | none => .ok 0

/-- Whether a table of symbols lies within the file. -/
def symbolsFit (e : Encoding) (image : Bytes) (place count : Nat) : Bool :=
  count = 0 || image.fits place (count * e.pick 16 24)

/-- Reads the search lists, checking every table that the entries point to. -/
def searchLists (h : Header) (image : Bytes) (segments : List Segment) (entries : List DynamicEntry) :
    Except Malformation SearchLists := do
  let e := h.encoding
  let at_ := place segments entries
  let value := last entries
  let strs ← StringTable.read image (at_ .strings) (value .stringsSize)
  let withAddend ← largestSymbol e image (at_ .relocationsWithAddend) (value .relocationsWithAddendSize) true
  let plain ← largestSymbol e image (at_ .relocations) (value .relocationsSize) false
  let jumps ← largestSymbol e image (at_ .jumpRelocations) (value .jumpRelocationsSize)
    (value .jumpRelocationsKind = DynamicTag.relocationsWithAddend.code)
  let hashed ← hashedSymbols h image segments entries
  let named := max withAddend (max plain jumps)
  let count := if named = 0 then hashed else max hashed (named + 1)
  require (symbolsFit e image (at_ .symbols) count) .symbols
  return ⟨strings strs entries .runpath, strings strs entries .rpath⟩

end Dynamic

end LibraryGuard.Elf
