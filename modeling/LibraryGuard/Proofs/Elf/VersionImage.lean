import LibraryGuard.Error
import LibraryGuard.Proofs.Elf.NewestVersion
import LibraryGuard.Proofs.Elf.WrittenRecords

/-!
# An image that was written for some names is read back

`Layout` says where the parts of an image of some names stand, and `encode_layout` that `VersionImage.encode` puts them there.
A file of less than 4 GiB with this layout is read without a fault (`Layout.object_read`), the walk over its definitions
reaches its names (`Layout.reachedNames_eq`), each of which it defines (`defines_encode_iff`). So its newest version of a family
is the largest that the names of the family carry, and at least `0.0.0` (`newestVersion_encode_isGreatest`).
-/

namespace LibraryGuard.Elf

open Bytes (HoldsAt)

/-- The table of sections is what its entries are read as, when the header counts them and they are there. -/
theorem Section.table_of_read {h : Header} {image : Bytes} {first : Section} {others : List Section}
    (hat : h.sectionsAt ≠ 0) (hcount : h.sectionCount ≠ 0) (hfirst : read? h.encoding image h.sectionsAt = some first)
    (hroom : h.sectionCount ≤ image.size / headerSize h.encoding)
    (hothers : records (read? h.encoding image) (headerSize h.encoding) (h.sectionCount - 1)
      (h.sectionsAt + headerSize h.encoding) = some others) :
    table h image = .ok (first :: others) := by
  simp [table, hat, hcount, hfirst, hroom, hothers, demand, require, bind, Except.bind, pure, Except.pure]


namespace VersionImage

variable {image : Bytes}

/-! ## The layout -/

@[simp] theorem length_nameOffsets (at_ : Nat) (names : List String) : (nameOffsets at_ names).length = names.length := by
  induction names generalizing at_ with
  | nil => rfl
  | cons name rest ih => rw [nameOffsets, List.length_cons, List.length_cons, ih]

@[simp] theorem length_definitions (index : Nat) (names : List Nat) :
    (definitions index names).length = definitionSize * names.length := by
  induction names generalizing index with
  | nil => rfl
  | cons name rest ih =>
    rw [definitions, List.length_append, length_definition, ih, List.length_cons, Nat.mul_succ, Nat.add_comm]

@[simp] theorem length_sectionEntry (name kind place size link info alignment : Nat) :
    (sectionEntry name kind place size link info alignment).length = headerSize := by
  simp [sectionEntry, headerSize]

@[simp] theorem length_header (sectionsAt : Nat) : (header sectionsAt).length = headerSize := by
  simp [header, headerSize]

/-- The definitions of some names. -/
def definitionsOf (names : List String) : List UInt8 := definitions 1 (nameOffsets 1 names)

/-- Where the definitions of some names stand. -/
def definitionsAt (names : List String) : Nat :=
  headerSize + (nameTable names).length + (padding 4 (headerSize + (nameTable names).length)).length

/-- Where the table of sections stands. -/
def sectionsAt (names : List String) : Nat := headerSize + (content names).length

/-- Where the parts of an image of some names stand. -/
structure Layout (image : Bytes) (names : List String) : Prop where
  hasHeader : HoldsAt image 0 (header (sectionsAt names))
  hasNames : HoldsAt image headerSize (nameTable names)
  hasDefinitions : HoldsAt image (definitionsAt names) (definitionsOf names)
  hasSectionNames : HoldsAt image (definitionsAt names + (definitionsOf names).length) sectionNames
  hasSections : HoldsAt image (sectionsAt names) (sectionTable names)

/-- The written image is laid out so. -/
theorem encode_layout (names : List String) : Layout (encode names) names := by
  have himage : HoldsAt (encode names) 0 (header (sectionsAt names) ++ content names ++ sectionTable names) :=
    Bytes.holdsAt_zero _
  obtain ⟨hfront, hsections⟩ := himage.split
  obtain ⟨hheader, hcontent⟩ := hfront.split
  rw [length_header, Nat.zero_add, content] at hcontent
  obtain ⟨hbody, hnames⟩ := hcontent.split.1.split
  obtain ⟨htable, hdefinitions⟩ := hbody.split
  refine ⟨hheader, htable.split.1, ?_, ?_, ?_⟩
  · simpa [definitionsAt, definitionsOf, Nat.add_assoc] using hdefinitions
  · simpa [definitionsAt, definitionsOf, Nat.add_assoc] using hnames
  · simpa [sectionsAt] using hsections

/-- The table of sections, written entry by entry. -/
theorem sectionTable_eq (names : List String) :
    sectionTable names = sectionEntry 0 0 0 0 0 0 0 ++ sectionEntry 1 3 headerSize (nameTable names).length 0 0 1 ++
      sectionEntry 9 0x6FFFFFFD (definitionsAt names) (definitionsOf names).length 1 names.length 4 ++
      sectionEntry 24 3 (definitionsAt names + (definitionsOf names).length) sectionNames.length 0 0 1 := rfl

/-- Fewer zeros than the multiple fill up a length. -/
theorem length_padding_lt {multiple : Nat} (length : Nat) (h : 0 < multiple) :
    (padding multiple length).length < multiple := by
  rw [padding, List.length_replicate]
  exact Nat.mod_lt _ h

/-- An image of some names takes a fixed number of bytes, and some for each name besides its own. -/
theorem size_encode_le (names : List String) :
    (encode names).size ≤ 400 + (names.map fun name => name.utf8ByteSize + 29).sum := by
  have hnames :
      (names.flatMap terminated).length + 28 * names.length = (names.map fun name => name.utf8ByteSize + 29).sum := by
    induction names with
    | nil => rfl
    | cons name rest ih =>
      rw [List.flatMap_cons, List.length_append, length_terminated, List.map_cons, List.sum_cons, List.length_cons, ← ih]
      omega
  have htable : (nameTable names).length = (names.flatMap terminated).length + 1 := rfl
  have hsections : sectionNames.length = 34 := by
    simp only [sectionNames, List.length_cons, List.length_append, length_terminated]
    decide
  have hgap := length_padding_lt (headerSize + (nameTable names).length) (show 0 < 4 by decide)
  have hend := length_padding_lt (headerSize + (nameTable names ++ padding 4 (headerSize + (nameTable names).length) ++
    definitions 1 (nameOffsets 1 names) ++ sectionNames).length) (show 0 < 8 by decide)
  simp only [encode, content, sectionTable_eq, List.size_toArray, List.length_append, length_header, length_sectionEntry,
    length_definitions, length_nameOffsets, hsections, headerSize, definitionSize, ← hnames] at hgap hend ⊢
  omega

/-! ## The whole image -/

/-- The section of the names, of their definitions, and of the names of the sections. -/
def namesSection (names : List String) : Section := ⟨.other 3, 0, headerSize, (nameTable names).length, 0, 0, 0⟩

@[inherit_doc namesSection]
def definitionsSection (names : List String) : Section :=
  ⟨.versionDefinitions, 0, definitionsAt names, (definitionsOf names).length, 1, names.length, 0⟩

@[inherit_doc namesSection]
def sectionNamesSection (names : List String) : Section :=
  ⟨.other 3, 0, definitionsAt names + (definitionsOf names).length, sectionNames.length, 0, 0, 0⟩

/-- The sections of an image of some names, of which the first one is none. -/
def sectionsOf (names : List String) : List Section :=
  [⟨.other 0, 0, 0, 0, 0, 0, 0⟩, namesSection names, definitionsSection names, sectionNamesSection names]

/-- The header of an image of some names. -/
def headerOf (names : List String) : Header := ⟨encoding, 62, 0, sectionsAt names, 0, 4, 3⟩

variable {names : List String}

/-- The table of sections is read back. -/
theorem Layout.sections_read (h : Layout image names) (hsize : image.size < 2 ^ 32) :
    Section.table (headerOf names) image = .ok (sectionsOf names) := by
  have hend := h.hasSections.end_le
  have hnamesEnd := h.hasSectionNames.end_le
  have htableEnd := h.hasNames.end_le
  have hcount : names.length < 256 ^ 4 := by
    have hdefinitions := h.hasDefinitions.end_le
    rw [definitionsOf, length_definitions, length_nameOffsets, definitionSize] at hdefinitions
    omega
  have htable := h.hasSections
  rw [sectionTable_eq] at htable hend
  simp only [List.length_append, length_sectionEntry, headerSize] at hend htableEnd
  obtain ⟨htable, hsectionNames⟩ := htable.split
  obtain ⟨htable, hdefinitions⟩ := htable.split
  obtain ⟨hnone, hnames⟩ := htable.split
  simp only [List.length_append, length_sectionEntry, headerSize] at hsectionNames hdefinitions hnames
  have rnone := section_read hnone (by decide) (by decide) (by decide) (by decide) (by decide)
  have rnames := section_read hnames (by decide) (by decide) (by omega) (by decide) (by decide)
  have rdefinitions := section_read hdefinitions (by decide) (by omega) (by omega) (by decide) hcount
  have rsectionNames := section_read hsectionNames (by decide) (by omega) (by omega) (by decide) (by decide)
  have hothers : records (Section.read? encoding image) 64 3 (sectionsAt names + 64) =
      some [namesSection names, definitionsSection names, sectionNamesSection names] := by
    simp [records, Nat.add_assoc, rnames, rdefinitions, rsectionNames, SectionKind.ofCode, namesSection, definitionsSection,
      sectionNamesSection, headerSize]
  exact Section.table_of_read (by simp [headerOf, sectionsAt, headerSize]) (show 4 ≠ 0 by decide) rnone
    (show 4 ≤ image.size / 64 by omega) hothers

/-- The names of the sections are a table of names. -/
theorem sectionNames_eq : sectionNames = nameTable [".dynstr", ".gnu.version_d", ".shstrtab"] := by
  simp [sectionNames, nameTable]

/-- The table of the sections' names is read. -/
theorem Layout.sectionNames_read (h : Layout image names) (hsize : image.size < 2 ^ 32) :
    Object.stringsAt image (sectionsOf names) 3 = .ok ⟨sectionNames⟩ := by
  have hnames := h.hasSectionNames
  rw [sectionNames_eq] at hnames
  have hread := nameTable_read hnames
  rw [← sectionNames_eq] at hread
  have hbounds : (sectionNamesSection names).inBounds image = true := by
    have hend := h.hasSectionNames.end_le
    have haddresses : sectionNames.length < UInt64.size := by
      rw [UInt64.size]
      omega
    simp [Section.inBounds, sectionNamesSection, Bytes.fits, hend, haddresses]
  have hthere : Object.sectionAt? (sectionsOf names) 3 = some (sectionNamesSection names) := rfl
  rw [Object.stringsAt, hthere]
  simp only [hbounds, require, if_true]
  exact hread

/-- The whole image is read back. -/
theorem Layout.object_read (h : Layout image names) (hsize : image.size < 2 ^ 32) :
    Object.read image = .ok ⟨headerOf names, [], sectionsOf names, ⟨[], []⟩⟩ := by
  have hend := h.hasSections.end_le
  have hheader : Header.read image = .ok (headerOf names) := header_read h.hasHeader (by omega)
  have hsegments : Segment.table (headerOf names) image = .ok [] := rfl
  have hsections := h.sections_read hsize
  have hnames : Object.stringsAt image (sectionsOf names) (headerOf names).namesIndex = _ := h.sectionNames_read hsize
  have hsymbols : Object.checkSymbols (headerOf names).encoding image (sectionsOf names) = .ok () := rfl
  have hlists : Object.readSearchLists (headerOf names) image [] = .ok ⟨[], []⟩ := rfl
  have hrelocations : Object.relocationsInBounds image (sectionsOf names) = true := rfl
  have hdefinitions : Object.firstFits image (sectionsOf names) .versionDefinitions = true := by
    have hdefinitionsEnd := h.hasDefinitions.end_le
    simpa [Object.firstFits, sectionsOf, namesSection, definitionsSection, Bytes.fits] using hdefinitionsEnd
  have hsymbolVersions : Object.firstFits image (sectionsOf names) .versionSymbols = true := rfl
  have hneeds : Object.firstFits image (sectionsOf names) .versionNeeds = true := rfl
  simp [Object.read, hheader, hsegments, hsections, hnames, hsymbols, hlists, hrelocations, hsymbolVersions, hdefinitions,
    hneeds, require, bind, Except.bind, pure, Except.pure]

/-- The definitions of a written image, and its table of names, are found. -/
theorem Layout.versionTable_eq (h : Layout image names) (hsize : image.size < 2 ^ 32) :
    versionTable image = .ok (encoding, definitionsSection names, ⟨nameTable names⟩) := by
  have hmagic : hasMagic image = true := by
    obtain ⟨before, after, himage, hbefore⟩ := h.hasHeader
    obtain rfl : before = [] := List.eq_nil_of_length_eq_zero hbefore
    rw [AnswerAux.hasMagic_iff, himage]
    exact ⟨_, rfl⟩
  have hfirst : Object.versionSection? ⟨headerOf names, [], sectionsOf names, ⟨[], []⟩⟩ =
      some (definitionsSection names) := rfl
  have hlinked : (sectionsOf names)[(definitionsSection names).link]? = some (namesSection names) := rfl
  have htable : StringTable.read image (namesSection names).offset (namesSection names).size = .ok ⟨nameTable names⟩ :=
    nameTable_read h.hasNames
  rw [AnswerAux.versionTable_eq, if_pos hmagic, h.object_read hsize]
  simp only [hfirst, hlinked, htable]
  rfl

/-- Each definition of a written image has one name, and these are at the offsets of the names. -/
theorem Layout.nameLists_eq (h : Layout image names) (hsize : image.size < 2 ^ 32) :
    let s := definitionsSection names
    nameLists encoding (image.extract s.offset (s.offset + s.size)) s.info 0 =
      (nameOffsets 1 names).map fun offset => [offset] := by
  have hcontent : image.extract (definitionsAt names) (definitionsAt names + (definitionsOf names).length) = _ :=
    h.hasDefinitions.extract_eq
  have hoffsets : ∀ offset ∈ nameOffsets 1 names, offset < 256 ^ 4 := by
    intro offset hoffset
    have hlt := lt_of_mem_nameOffsets hoffset
    have hend := h.hasNames.end_le
    rw [nameTable, List.length_cons] at hend
    omega
  have hlists := nameLists_definitions (Bytes.holdsAt_zero (definitionsOf names)) hoffsets
  rw [length_nameOffsets] at hlists
  rw [← hlists]
  simp only [definitionsSection, hcontent]

/-- The walk over the definitions of a written image reaches the offsets of its names. -/
theorem Layout.reachedNames_eq (h : Layout image names) (hsize : image.size < 2 ^ 32) :
    reachedNames encoding image (definitionsSection names) = nameOffsets 1 names := by
  rw [reachedNames, definitionChain_eq, h.nameLists_eq hsize, ← List.flatMap_def, List.flatMap_singleton']

/-- It reaches each of them as the only name of the definition with its number. -/
theorem Layout.reaches_iff (h : Layout image names) (hsize : image.size < 2 ^ 32) {i j offset : Nat} :
    Reaches encoding image (definitionsSection names) i j offset ↔ (nameOffsets 1 names)[i]? = some offset ∧ j = 0 := by
  rw [← nameLists_getElem?_iff, h.nameLists_eq hsize]
  simp only [List.getElem?_map, Option.map_eq_some_iff]
  constructor
  · rintro ⟨_, ⟨offset', hoffset, rfl⟩, hj⟩
    rw [List.getElem?_singleton, Option.ite_none_right_eq_some, Option.some.injEq] at hj
    obtain ⟨rfl, rfl⟩ := hj
    exact ⟨hoffset, rfl⟩
  · rintro ⟨hoffset, rfl⟩
    exact ⟨_, ⟨offset, hoffset, rfl⟩, rfl⟩

/-- What stands in the table at the offset of a name is the name. -/
theorem get?_nameOffset (hnul : ∀ name ∈ names, '\x00' ∉ name.toList) {i offset : Nat}
    (h : (nameOffsets 1 names)[i]? = some offset) :
    ∃ name, names[i]? = some name ∧ StringTable.get? ⟨nameTable names⟩ offset = some name := by
  have hlookup : (nameOffsets 1 names).map (StringTable.get? ⟨nameTable names⟩) = names.map some := get?_nameOffsets [0] hnul
  have hat := congrArg (·[i]?) hlookup
  simp only [List.getElem?_map, h, Option.map_some] at hat
  obtain ⟨name, hname, heq⟩ := Option.map_eq_some_iff.1 hat.symm
  exact ⟨name, hname, heq.symm⟩

/-- The walk over a written image reaches its names, one in each definition. -/
theorem Layout.reaches_name_iff (h : Layout image names) (hsize : image.size < 2 ^ 32)
    (hnul : ∀ name ∈ names, '\x00' ∉ name.toList) {i j : Nat} {name : String} :
    (∃ offset, Reaches encoding image (definitionsSection names) i j offset ∧
      StringTable.get? ⟨nameTable names⟩ offset = some name) ↔ names[i]? = some name ∧ j = 0 := by
  simp only [h.reaches_iff hsize]
  constructor
  · rintro ⟨offset, ⟨hoffset, rfl⟩, hget⟩
    obtain ⟨name', hname, hget'⟩ := get?_nameOffset hnul hoffset
    exact ⟨hname.trans (hget'.symm.trans hget), rfl⟩
  · rintro ⟨hname, rfl⟩
    have hlt : i < (nameOffsets 1 names).length := by
      rw [length_nameOffsets]
      exact (List.getElem?_eq_some_iff.1 hname).1
    have hoffset := List.getElem?_eq_getElem hlt
    obtain ⟨name', hname', hget⟩ := get?_nameOffset hnul hoffset
    exact ⟨_, ⟨hoffset, rfl⟩, hget.trans (hname'.symm.trans hname)⟩

/-- A written image defines the names that it was written for, and no others. -/
theorem defines_encode_iff (hnul : ∀ name ∈ names, '\x00' ∉ name.toList) (hsize : (encode names).size < 2 ^ 32)
    {name : String} : Defines (encode names) name ↔ name ∈ names := by
  have hlayout := encode_layout names
  obtain ⟨o, hopened, hencoding⟩ := AnswerAux.opened_of_table (hlayout.versionTable_eq hsize)
  constructor
  · rintro ⟨o', definitions, table, i, j, offset, hopened', hreached, hname⟩
    obtain ⟨rfl, rfl, rfl⟩ := AnswerAux.opened_unique hopened hopened'
    rw [hencoding] at hreached
    exact List.mem_of_getElem? ((hlayout.reaches_name_iff hsize hnul).1 ⟨offset, hreached, hname⟩).1
  · intro hmem
    obtain ⟨i, hi⟩ := List.mem_iff_getElem?.1 hmem
    obtain ⟨offset, hreached, hname⟩ := (hlayout.reaches_name_iff hsize hnul).2 ⟨hi, rfl⟩
    rw [← hencoding] at hreached
    exact ⟨o, _, _, i, 0, offset, hopened, hreached, hname⟩

/-- The versions that the names of a family carry, each read leniently, in order. -/
def versions (family : String) (names : List String) : List Version :=
  names.filterMap fun name => (afterFamily? family name).map fun text => (Version.parseLenient text).value

/-- A version is carried exactly when it is what the rest of some name of the family is read as. -/
theorem mem_versions_iff (family : String) (names : List String) (v : Version) :
    v ∈ versions family names ↔ ∃ text, family ++ text ∈ names ∧ v = (Version.parseLenient text).value := by
  simp only [versions, List.mem_filterMap, Option.map_eq_some_iff, afterFamily?_eq_some_iff]
  constructor
  · rintro ⟨_, hname, text, rfl, rfl⟩
    exact ⟨text, hname, rfl⟩
  · rintro ⟨text, hname, rfl⟩
    exact ⟨_, hname, text, rfl, rfl⟩

/-- The newest version of an image that was written for some names is the largest version that these carry. -/
theorem newestVersion_encode (family : String) (hnul : ∀ name ∈ names, '\x00' ∉ name.toList)
    (hsize : (encode names).size < 2 ^ 32) :
    (newestVersion (encode names) family).value = .ok ((versions family names).foldl max .zero) := by
  have hlayout := encode_layout names
  have hlookup : (nameOffsets 1 names).map (StringTable.get? ⟨nameTable names⟩) = names.map some :=
    get?_nameOffsets [0] hnul
  have hfound : (nameOffsets 1 names).find? (fun offset => (StringTable.get? ⟨nameTable names⟩ offset).isNone) = none := by
    rw [List.find?_eq_none]
    intro offset hoffset
    have hsome := List.mem_map_of_mem (f := StringTable.get? ⟨nameTable names⟩) hoffset
    rw [hlookup] at hsome
    obtain ⟨name, -, hname⟩ := List.mem_map.1 hsome
    simp [← hname]
  have hversions : versionsOf ⟨nameTable names⟩ family (nameOffsets 1 names) = versions family names := by
    have hread : (names.map some).filterMap (fun name => (name.bind (afterFamily? family)).map fun text =>
        (Version.parseLenient text).value) = versions family names := by
      rw [List.filterMap_map]
      rfl
    rw [← hread, ← hlookup, List.filterMap_map]
    rfl
  rw [newestVersion, hlayout.versionTable_eq hsize]
  simp only [newestOf_value, hlayout.reachedNames_eq hsize, hfound, hversions]

/-- An image that was written for some names is read: its newest version of a family is the largest of `0.0.0` and the versions
that the names of the family carry, each read leniently, whatever the names are, how often they occur and in which order. -/
theorem newestVersion_encode_isGreatest (names : List String) (family : String)
    (hnul : ∀ name ∈ names, '\x00' ∉ name.toList) (hsize : (encode names).size < 2 ^ 32) :
    ∃ v, (newestVersion (encode names) family).value = .ok v ∧
      IsGreatest {v | v = .zero ∨ ∃ text, family ++ text ∈ names ∧ v = (Version.parseLenient text).value} v := by
  refine ⟨_, newestVersion_encode family hnul hsize, ?_⟩
  simp only [← mem_versions_iff]
  exact Version.isGreatest_foldl_max ..

/-- Names out of order, one of them empty, some of other families, one twice, and one that carries no version. -/
def mixedNames : List String :=
  ["libstdc++.so.6", "GLIBCXX_3.4.21", "", "GLIBCXX_3.4.9", "CXXABI_1.3", "GLIBCXX_3.4.9", "GLIBCXX_é"]

theorem newestVersion_encode_mixedNames :
    (∀ name ∈ mixedNames, '\x00' ∉ name.toList) ∧ (encode mixedNames).size < 2 ^ 32 ∧
      (newestVersion (encode mixedNames) "GLIBCXX_").value = .ok ⟨3, 4, 21⟩ ∧
      IsGreatest {v | v = .zero ∨ ∃ text, "GLIBCXX_" ++ text ∈ mixedNames ∧ v = (Version.parseLenient text).value}
        ⟨3, 4, 21⟩ := by
  have hnul : ∀ name ∈ mixedNames, '\x00' ∉ name.toList := by decide
  have hsize : (encode mixedNames).size < 2 ^ 32 := (size_encode_le mixedNames).trans_lt (by decide)
  obtain ⟨v, hv, hgreatest⟩ := newestVersion_encode_isGreatest mixedNames "GLIBCXX_" hnul hsize
  have hread := newestVersion_encode "GLIBCXX_" hnul hsize
  rw [show (versions "GLIBCXX_" mixedNames).foldl max .zero = ⟨3, 4, 21⟩ by decide] at hread
  obtain rfl : v = ⟨3, 4, 21⟩ := Except.ok.inj (hv.symm.trans hread)
  exact ⟨hnul, hsize, hread, hgreatest⟩

/-- The names of the family in another order, each of them once, among other names of other families. -/
def orderedNames : List String := ["GLIBCXX_é", "GLIBCXX_3.4.9", "GLIBCXX_3.4.21", "GLIBC_2.38"]

theorem orderedNames_family (text : String) : "GLIBCXX_" ++ text ∈ mixedNames ↔ "GLIBCXX_" ++ text ∈ orderedNames := by
  have hfamily : "GLIBCXX_".toList <+: ("GLIBCXX_" ++ text).toList := by
    rw [String.toList_append]
    exact List.prefix_append ..
  have hkept : ∀ name ∈ mixedNames, "GLIBCXX_".toList <+: name.toList → name ∈ orderedNames := by decide
  have hold : ∀ name ∈ orderedNames, "GLIBCXX_".toList <+: name.toList → name ∈ mixedNames := by decide
  exact ⟨fun h => hkept _ h hfamily, fun h => hold _ h hfamily⟩

/-- An image of these names has the same newest version. -/
theorem newestVersion_orderedNames :
    Defines (encode mixedNames) "GLIBCXX_3.4.21" ∧ Answer (encode mixedNames) "GLIBCXX_" (.ok ⟨3, 4, 21⟩) ∧
      (newestVersion (encode orderedNames) "GLIBCXX_").value = .ok ⟨3, 4, 21⟩ := by
  have hnul : ∀ name ∈ mixedNames, '\x00' ∉ name.toList := by decide
  have hsize : (encode mixedNames).size < 2 ^ 32 := (size_encode_le mixedNames).trans_lt (by decide)
  have hnul' : ∀ name ∈ orderedNames, '\x00' ∉ name.toList := by decide
  have hsize' : (encode orderedNames).size < 2 ^ 32 := (size_encode_le orderedNames).trans_lt (by decide)
  obtain ⟨hiff, hsame⟩ := newestVersion_eq_iff_answer "GLIBCXX_"
  have hread : (newestVersion (encode mixedNames) "GLIBCXX_").value = .ok ⟨3, 4, 21⟩ := newestVersion_encode "GLIBCXX_" hnul hsize
  have hread' := newestVersion_encode "GLIBCXX_" hnul' hsize'
  have hversion := hsame _ _ _ _ hread hread' fun text => by
    rw [defines_encode_iff hnul hsize, defines_encode_iff hnul' hsize', orderedNames_family]
  refine ⟨(defines_encode_iff hnul hsize).2 (by decide), (hiff _ _).1 hread, ?_⟩
  rw [hread', ← hversion]

end VersionImage

end LibraryGuard.Elf

namespace LibraryGuard

variable {files : Files} {path : Path} {family : String} {v : Version}

/-- The newest version of a file is that of the image which it holds. -/
theorem Files.newestVersion_of_read {image : Bytes} (hread : files.read path = .ok image)
    (hv : (Elf.newestVersion image family).value = .ok v) : (files.newestVersion path family).value = .ok v := by
  simp [Files.newestVersion, hread, hv, Except.mapError]

/-- The newest version of a file is the largest that the names carry for which its image was written. -/
theorem Files.newestVersion_of_encode {names : List String} (hread : files.read path = .ok (Elf.VersionImage.encode names))
    (hnul : ∀ name ∈ names, '\x00' ∉ name.toList)
    (hsize : 400 + (names.map fun name => name.utf8ByteSize + 29).sum < 2 ^ 32)
    (hv : (Elf.VersionImage.versions family names).foldl max .zero = v) : (files.newestVersion path family).value = .ok v := by
  have hnewest := Elf.VersionImage.newestVersion_encode family hnul ((Elf.VersionImage.size_encode_le names).trans_lt hsize)
  rw [hv] at hnewest
  exact newestVersion_of_read hread hnewest

end LibraryGuard
