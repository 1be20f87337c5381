import LibraryGuard.Elf.VersionImage
import LibraryGuard.Proofs.Bytes
import LibraryGuard.Proofs.Elf.DefinitionWalk
import LibraryGuard.Proofs.Text.Utf8
import Mathlib.Algebra.Ring.Nat

/-!
# Written numbers, records and names are read back

Wherever the bytes of a written number, record or table of names stand in a file, its reader finds there what was written:
the header (`header_read`), an entry of the table of sections (`section_read`), a definition with its name record
(`definition_read`), and the table of names, in which a name without NUL is looked up at its offset (`get?_nameOffsets`). From
these the walk over a written chain of definitions reaches just the names of the chain (`nameLists_definitions`).
-/

namespace LibraryGuard.Elf.VersionImage

open Bytes (HoldsAt)

/-- The encoding of the images that are written: 64-bit, little-endian. -/
def encoding : Encoding := ⟨.bits64, .little⟩

/-! ## Numbers -/

@[simp] theorem length_number (width n : Nat) : (number width n).length = width := by
  induction width generalizing n with
  | zero => rfl
  | succ width ih => rw [number, List.length_cons, ih]

/-- A number that fits into a width is read back from its bytes. -/
theorem value_number {width n : Nat} (h : n < 256 ^ width) : Bytes.value .little (number width n) = n := by
  induction width generalizing n with
  | zero =>
    rw [Nat.pow_zero] at h
    obtain rfl : n = 0 := by omega
    rfl
  | succ width ih =>
    have hrest : Bytes.value .little (number width (n / 256)) = n / 256 :=
      ih (Nat.div_lt_of_lt_mul (by rwa [Nat.pow_succ'] at h))
    calc Bytes.value .little (number (width + 1) n)
        = Bytes.value .little (number width (n / 256)) * 256 + (UInt8.ofNat n).toNat := rfl
      _ = n := by
        rw [hrest, UInt8.toNat_ofNat']
        omega

variable {image : Bytes} {offset : Nat}

/-- A number that stands before something else is read at its offset. -/
theorem nat?_front {width n : Nat} {rest : List UInt8} (h : HoldsAt image offset (number width n ++ rest))
    (hn : n < 256 ^ width) : image.nat? .little offset width = some n := by
  have hslice := h.split.1.slice?_eq
  rw [length_number] at hslice
  rw [Bytes.nat?, hslice]
  exact congrArg some (value_number hn)

/-- What stands behind a number is found by passing over it. -/
theorem behind {width n : Nat} {rest : List UInt8} (h : HoldsAt image offset (number width n ++ rest)) :
    HoldsAt image (offset + width) rest := by
  simpa using h.split.2

/-! ## Records -/

/-- An entry of the table of sections is read back. -/
theorem section_read {name kind place size link info alignment : Nat}
    (h : HoldsAt image offset (sectionEntry name kind place size link info alignment)) (hkind : kind < 256 ^ 4)
    (hplace : place < 256 ^ 8) (hsize : size < 256 ^ 8) (hlink : link < 256 ^ 4) (hinfo : info < 256 ^ 4) :
    Section.read? encoding image offset = some ⟨.ofCode kind, 0, place, size, link, info, 0⟩ := by
  have hfits : image.fits offset 64 = true := by simpa [sectionEntry, Bytes.fits] using h.end_le
  rw [sectionEntry, ← List.append_nil (number 8 0)] at h
  simp only [List.append_assoc] at h
  -- The fields are passed over one after the other, and those that the reader takes are read on the way.
  replace h := behind h
  have rkind := nat?_front h hkind
  replace h := behind (behind h)
  have raddress := nat?_front h (by decide)
  replace h := behind h
  have rplace := nat?_front h hplace
  replace h := behind h
  have rsize := nat?_front h hsize
  replace h := behind h
  have rlink := nat?_front h hlink
  replace h := behind h
  have rinfo := nat?_front h hinfo
  replace h := behind (behind h)
  have rentry := nat?_front h (by decide)
  simp only [Nat.add_assoc, Nat.reduceAdd] at rkind raddress rplace rsize rlink rinfo rentry
  simp [Section.read?, encoding, Section.headerSize, Encoding.pick, Encoding.word?, Encoding.address?, hfits, rkind,
    raddress, rplace, rsize, rlink, rinfo, rentry]

/-- The identification bytes name the encoding. -/
theorem encoding_read {sectionsAt : Nat} (h : HoldsAt image 0 (header sectionsAt)) :
    Encoding.read? image = some encoding := by
  have hsize : 16 ≤ image.size := by
    have hend := h.end_le
    simp [header] at hend
    omega
  obtain ⟨before, after, himage, hbefore⟩ := h
  obtain rfl : before = [] := List.eq_nil_of_length_eq_zero hbefore
  have hclass : image.getD 4 0 = 2 := by
    rw [Array.getD_eq_getD_getElem?, ← Array.getElem?_toList, himage]
    rfl
  have hdata : image.getD 5 0 = 1 := by
    rw [Array.getD_eq_getD_getElem?, ← Array.getElem?_toList, himage]
    rfl
  simp [Encoding.read?, hclass, hdata, Nat.not_lt.2 hsize, WordSize.ofCode?, orderOfCode?, encoding]

/-- The header is read back. -/
theorem header_read {sectionsAt : Nat} (h : HoldsAt image 0 (header sectionsAt)) (hat : sectionsAt < 256 ^ 8) :
    Header.read image = .ok ⟨encoding, 62, 0, sectionsAt, 0, 4, 3⟩ := by
  have hencoding := encoding_read h
  have hfits : image.fits 0 64 = true := by simpa [header, Bytes.fits] using h.end_le
  rw [header, ← List.append_nil (number 2 3)] at h
  simp only [List.append_assoc] at h
  replace h := behind h.split.2.split.2
  have rmachine := nat?_front h (by decide)
  replace h := behind (behind (behind h))
  have rsegments := nat?_front h (by decide)
  replace h := behind h
  have rsections := nat?_front h hat
  replace h := behind (behind (behind (behind h)))
  have rsegmentCount := nat?_front h (by decide)
  replace h := behind (behind h)
  have rsectionCount := nat?_front h (by decide)
  replace h := behind h
  have rnames := nat?_front h (by decide)
  simp only [List.length_cons, List.length_nil, List.length_replicate, Nat.reduceAdd]
    at rmachine rsegments rsections rsegmentCount rsectionCount rnames
  simp [Header.read, Header.fields?, hencoding, demand, encoding, Encoding.pick, Encoding.half?, Encoding.address?, hfits,
    rmachine, rsegments, rsections, rsegmentCount, rsectionCount, rnames]

/-- A definition is read back, and so is the name record right behind it. -/
theorem definition_read {flags index step name : Nat} (h : HoldsAt image offset (definition flags index step name))
    (hstep : step < 256 ^ 4) (hname : name < 256 ^ 4) :
    VersionDefinition.read? encoding image offset = some ⟨1, 20, step⟩ ∧
      VersionName.read? encoding image (offset + 20) = some ⟨name, 0⟩ := by
  rw [definition, ← List.append_nil (number 4 0)] at h
  simp only [List.append_assoc] at h
  replace h := behind (behind (behind h))
  have rcount := nat?_front h (by decide)
  replace h := behind (behind h)
  have rnames := nat?_front h (by decide)
  replace h := behind h
  have rstep := nat?_front h hstep
  replace h := behind h
  have rname := nat?_front h hname
  replace h := behind h
  have rnext := nat?_front h (by decide)
  simp only [Nat.add_assoc, Nat.reduceAdd] at rcount rnames rstep rname rnext
  constructor
  · simp [VersionDefinition.read?, encoding, Encoding.half?, Encoding.word?, rcount, rnames, rstep]
  · simp [VersionName.read?, encoding, Encoding.word?, Nat.add_assoc, rname, rnext]

/-! ## The chain of definitions -/

@[simp] theorem length_definition (flags index step name : Nat) :
    (definition flags index step name).length = definitionSize := by
  simp [definition, definitionSize]

/-- The chain of the definitions of some names has one definition for each of them, with just this name. -/
theorem nameLists_definitions {content : Bytes} {index at_ : Nat} {names : List Nat}
    (h : HoldsAt content at_ (definitions index names)) (hnames : ∀ name ∈ names, name < 256 ^ 4) :
    nameLists encoding content names.length at_ = names.map fun name => [name] := by
  induction names generalizing index at_ with
  | nil => rfl
  | cons name rest ih =>
    obtain ⟨hname, hrest⟩ := List.forall_mem_cons.1 hnames
    obtain ⟨hfirst, hothers⟩ := h.split
    have hend : at_ + 28 ≤ content.size := by simpa [definitionSize] using hfirst.end_le
    have hroom : at_ + 20 < content.size := by omega
    obtain ⟨hdefinition, hrecord⟩ := definition_read hfirst (by split <;> decide) hname
    have hnameChain : nameChain encoding content 1 (at_ + 20) = [name] := by
      rw [nameChain, hrecord]
      rfl
    rw [List.length_cons, nameLists, chain, definition?, hdefinition, Option.filter_some, if_pos (by simpa using hroom)]
    simp only [List.map_cons, hnameChain]
    congr 1
    cases rest with
    | nil => rfl
    | cons name' rest =>
      rw [length_definition] at hothers
      exact ih hothers hrest

/-! ## The names -/

/-- The bytes of a text with a zero behind them are the encoding of the text with NUL behind it. -/
theorem terminated_eq (s : String) : terminated s = Text.Utf8.encode (s.toList ++ ['\x00']) := by
  rw [terminated, Text.Utf8.toUTF8_toList, Text.Utf8.encode_append]
  rfl

@[simp] theorem length_terminated (s : String) : (terminated s).length = s.utf8ByteSize + 1 := by
  rw [terminated, Text.Utf8.toUTF8_toList, List.length_append, Text.Utf8.length_encode]
  rfl

/-- A table of names is the encoding of a text. -/
theorem nameTable_eq (names : List String) :
    nameTable names = Text.Utf8.encode ('\x00' :: names.flatMap fun s => s.toList ++ ['\x00']) := by
  have hterminated : names.flatMap terminated =
      Text.Utf8.encode (names.flatMap fun s => s.toList ++ ['\x00']) := by
    induction names with
    | nil => rfl
    | cons name names ih => rw [List.flatMap_cons, List.flatMap_cons, Text.Utf8.encode_append, terminated_eq, ih]
  rw [nameTable, hterminated, Text.Utf8.encode_cons]
  rfl

/-- A table of names is read as a table of strings. -/
theorem nameTable_read {names : List String} (h : HoldsAt image offset (nameTable names)) :
    StringTable.read image offset (nameTable names).length = .ok ⟨nameTable names⟩ := by
  have hdecode := Text.Utf8.decode_encode ('\x00' :: names.flatMap fun s => s.toList ++ ['\x00'])
  rw [← nameTable_eq] at hdecode
  simp [StringTable.read, h.slice?_eq, demand, bind, Except.bind, hdecode, pure, Except.pure]

/-- A name without NUL is looked up at its place among other bytes, where a zero ends it. -/
theorem get?_terminated {before after : List UInt8} {name : String} (h : '\x00' ∉ name.toList) :
    StringTable.get? ⟨before ++ (terminated name ++ after)⟩ before.length = some name := by
  have hzero : ∀ b ∈ Text.Utf8.encode name.toList, b ≠ 0 := by
    rintro b hb rfl
    exact h ((Text.Utf8.zero_mem_encode_iff _).1 hb)
  have hrange : StringTable.inRange ⟨before ++ (terminated name ++ after)⟩ before.length = true := by
    simp [StringTable.inRange, Nat.pos_iff_ne_zero]
  rw [StringTable.get?, if_pos hrange, List.drop_left, terminated, Text.Utf8.toUTF8_toList, List.append_assoc,
    List.takeWhile_append_of_pos (by simpa using hzero)]
  simp [Text.Utf8.decode_encode]

/-- The names of a table are looked up at their offsets. -/
theorem get?_nameOffsets (before : List UInt8) {names : List String} (h : ∀ name ∈ names, '\x00' ∉ name.toList) :
    (nameOffsets before.length names).map (StringTable.get? ⟨before ++ names.flatMap terminated⟩) = names.map some := by
  induction names generalizing before with
  | nil => rfl
  | cons name rest ih =>
    obtain ⟨hname, hrest⟩ := List.forall_mem_cons.1 h
    have hlength : before.length + name.utf8ByteSize + 1 = (before ++ terminated name).length := by
      rw [List.length_append, length_terminated, Nat.add_assoc]
    rw [nameOffsets, List.map_cons, List.map_cons, List.flatMap_cons, get?_terminated hname, hlength,
      ← List.append_assoc, ih _ hrest]

/-- The names of a table stand within it. -/
theorem lt_of_mem_nameOffsets {at_ offset : Nat} {names : List String} (h : offset ∈ nameOffsets at_ names) :
    offset < at_ + (names.flatMap terminated).length := by
  induction names generalizing at_ with
  | nil => nomatch h
  | cons name rest ih =>
    rw [List.flatMap_cons, List.length_append, length_terminated]
    rcases List.mem_cons.1 h with rfl | hrest
    · omega
    · have hlt := ih hrest
      omega

end LibraryGuard.Elf.VersionImage
