import LibraryGuard.Proofs.Bytes
import LibraryGuard.Proofs.Elf.NewestVersion

/-!
# Images in files that go on

Whatever is read of an image is at a place that the image names, and every check on the way is that something lies within the
file. In a file that goes on behind the image these checks pass all the more, and the places hold the same bytes. So each part
of the image that is read is read alike in both files, in the order in which `Object.read` reads them, up to the whole image
(`Object.read_kept`). The section of version definitions lies within the first file, and so the walk over it is the same one
(`IsStart.newestVersion_eq`).

Nothing like it holds of a file that is not read: a table that reaches over the end of a file may lie within a longer one.
-/

namespace LibraryGuard.Elf

open Bytes

variable {image image' : Bytes} {α : Type}

/-! ## Numbers and records -/

@[gcongr] theorem demand_kept {x y : Option α} (h : IsKeptBy x y) (part : Part) :
    IsKeptBy (demand part x) (demand part y) := by
  intro a ha
  cases x with
  | none => nomatch ha
  | some c =>
    rw [h c rfl]
    exact ha

@[gcongr] theorem require_kept {condition condition' : Bool} (h : condition ≤ condition') (part : Part) :
    IsKeptBy (require condition part) (require condition' part) := by
  intro a ha
  cases condition with
  | false => nomatch ha
  | true =>
    rw [Bool.le_iff_imp.1 h rfl]
    exact ha

theorem require_eq_ok_iff {condition : Bool} {part : Part} {u : Unit} :
    require condition part = .ok u ↔ condition = true := by
  cases condition with
  | false => exact ⟨nofun, nofun⟩
  | true => exact ⟨fun _ => rfl, fun _ => rfl⟩

@[gcongr] theorem records_kept {read read' : Nat → Option α} (h : ∀ offset, IsKeptBy (read offset) (read' offset))
    (stride count offset : Nat) : IsKeptBy (records read stride count offset) (records read' stride count offset) := by
  induction count generalizing offset with
  | zero => rfl
  | succ count ih =>
    unfold records
    gcongr
    · exact h _
    · exact ih _

/-- Records that can be as many as a file has room for can be as many in a file that goes on. -/
theorem room_le (h : IsStart image image') (count stride : Nat) :
    decide (count ≤ image.size / stride) ≤ decide (count ≤ image'.size / stride) := by
  rw [Bool.le_iff_imp, decide_eq_true_iff, decide_eq_true_iff]
  exact fun hroom => hroom.trans (Nat.div_le_div_right h.size_le)

namespace Encoding

@[gcongr] theorem half?_kept (h : IsStart image image') (e : Encoding) (offset : Nat) :
    IsKeptBy (e.half? image offset) (e.half? image' offset) :=
  nat?_kept h e.order offset 2

@[gcongr] theorem word?_kept (h : IsStart image image') (e : Encoding) (offset : Nat) :
    IsKeptBy (e.word? image offset) (e.word? image' offset) :=
  nat?_kept h e.order offset 4

@[gcongr] theorem address?_kept (h : IsStart image image') (e : Encoding) (offset : Nat) :
    IsKeptBy (e.address? image offset) (e.address? image' offset) :=
  nat?_kept h e.order offset (e.pick 4 8)

theorem read?_kept (h : IsStart image image') : IsKeptBy (Encoding.read? image) (Encoding.read? image') := by
  intro e he
  rw [Encoding.read?] at he ⊢
  split at he
  next => nomatch he
  next hlong =>
    have hlong : 16 ≤ image.size := Nat.le_of_not_lt hlong
    rw [if_neg (Nat.not_lt.2 (hlong.trans h.size_le)), h.getD_eq (by omega), h.getD_eq (by omega)]
    exact he

end Encoding

/-! ## The header and the two tables

An entry is read only where all of it lies within the file, which is checked before its fields are read. -/

@[gcongr] theorem Header.fields?_kept (h : IsStart image image') (e : Encoding) :
    IsKeptBy (Header.fields? e image) (Header.fields? e image') := by
  unfold Header.fields?
  refine .guarded (fun _ => nofun) h.not_fits ?_
  dsimp only
  gcongr

@[gcongr] theorem Header.read_kept (h : IsStart image image') : IsKeptBy (Header.read image) (Header.read image') := by
  intro header hread
  rw [Header.read] at hread ⊢
  split at hread
  next => nomatch hread
  next e he =>
    rw [Encoding.read?_kept h e he]
    exact demand_kept (Header.fields?_kept h e) _ header hread

@[gcongr] theorem Segment.read?_kept (h : IsStart image image') (e : Encoding) (offset : Nat) :
    IsKeptBy (Segment.read? e image offset) (Segment.read? e image' offset) := by
  unfold Segment.read?
  refine .guarded (fun _ => nofun) h.not_fits ?_
  dsimp only
  gcongr

@[gcongr] theorem Segment.table_kept (h : IsStart image image') (header : Header) :
    IsKeptBy (Segment.table header image) (Segment.table header image') := by
  unfold Segment.table
  gcongr
  exact room_le h _ _

@[gcongr] theorem Section.read?_kept (h : IsStart image image') (e : Encoding) (offset : Nat) :
    IsKeptBy (Section.read? e image offset) (Section.read? e image' offset) := by
  unfold Section.read?
  refine .guarded (fun _ => nofun) h.not_fits ?_
  dsimp only
  gcongr

@[gcongr] theorem Section.table_kept (h : IsStart image image') (header : Header) :
    IsKeptBy (Section.table header image) (Section.table header image') := by
  unfold Section.table
  dsimp only
  gcongr
  exact room_le h _ _

@[gcongr] theorem Section.inBounds_le (h : IsStart image image') (s : Section) : s.inBounds image ≤ s.inBounds image' :=
  sup_le_sup_left (inf_le_inf_right _ (fits_le h _ _)) _

@[gcongr] theorem StringTable.read_kept (h : IsStart image image') (offset size : Nat) :
    IsKeptBy (StringTable.read image offset size) (StringTable.read image' offset size) := by
  unfold StringTable.read
  gcongr

/-! ## The dynamic section -/

@[gcongr] theorem DynamicEntry.read?_kept (h : IsStart image image') (e : Encoding) (offset : Nat) :
    IsKeptBy (DynamicEntry.read? e image offset) (DynamicEntry.read? e image' offset) := by
  unfold DynamicEntry.read?
  gcongr

@[gcongr] theorem DynamicEntry.table_kept (h : IsStart image image') (e : Encoding) (segments : List Segment) :
    IsKeptBy (DynamicEntry.table e image segments) (DynamicEntry.table e image' segments) := by
  unfold DynamicEntry.table
  split
  · rfl
  · dsimp only
    gcongr
    exact sup_le_sup_left (fits_le h _ _) _

namespace Dynamic

@[gcongr] theorem largestSymbol_kept (h : IsStart image image') (e : Encoding) (place size : Nat) (withAddend : Bool) :
    IsKeptBy (largestSymbol e image place size withAddend) (largestSymbol e image' place size withAddend) := by
  unfold largestSymbol
  dsimp only
  gcongr

@[gcongr] theorem largestWord?_kept (h : IsStart image image') (e : Encoding) (count offset largest : Nat) :
    IsKeptBy (largestWord? e image count offset largest) (largestWord? e image' count offset largest) := by
  induction count generalizing offset largest with
  | zero => rfl
  | succ count ih =>
    unfold largestWord?
    intro n hn
    split at hn
    next => nomatch hn
    next w hw =>
      rw [Encoding.word?_kept h e offset w hw]
      exact ih _ _ n hn

/-- A chain of hashes ends at an odd hash, never at the end of the file, where there is none to be read. -/
@[gcongr] theorem chainEnd?_kept (h : IsStart image image') (e : Encoding) (offset count : Nat) :
    IsKeptBy (chainEnd? e image offset count) (chainEnd? e image' offset count) := by
  have hnext (offset hash : Nat) (hw : e.word? image offset = some hash) (count : Nat) :
      chainEnd? e image' offset count =
        if hash % 2 = 1 then some (count + 1) else chainEnd? e image' (offset + 4) (count + 1) := by
    have hw' := Encoding.word?_kept h e offset hash hw
    rw [chainEnd?.eq_def e image']
    split
    next hnone => cases hnone.symm.trans hw'
    next hash' hsome =>
      obtain rfl := Option.some.inj (hsome.symm.trans hw')
      rfl
  fun_induction chainEnd? e image offset count with
  | case1 offset count hnone =>
    intro n hn
    cases hn
  | case2 offset count hash hw hodd => rw [hnext offset hash hw, if_pos hodd]
  | case3 offset count hash hw heven ih =>
    rw [hnext offset hash hw, if_neg heven]
    exact ih

@[gcongr] theorem gnuHashCount_kept (h : IsStart image image') (e : Encoding) (place : Nat) :
    IsKeptBy (gnuHashCount e image place) (gnuHashCount e image' place) := by
  unfold gnuHashCount
  dsimp only
  gcongr

@[gcongr] theorem hashCount_kept (h : IsStart image image') (header : Header) (place : Nat) :
    IsKeptBy (hashCount header image place) (hashCount header image' place) := by
  unfold hashCount
  dsimp only
  gcongr

@[gcongr] theorem hashedSymbols_kept (h : IsStart image image') (header : Header) (segments : List Segment)
    (entries : List DynamicEntry) :
    IsKeptBy (hashedSymbols header image segments entries) (hashedSymbols header image' segments entries) := by
  unfold hashedSymbols
  split
  · gcongr
  · split
    · gcongr
    · rfl

@[gcongr] theorem symbolsFit_le (h : IsStart image image') (e : Encoding) (place count : Nat) :
    symbolsFit e image place count ≤ symbolsFit e image' place count :=
  sup_le_sup_left (fits_le h _ _) _

@[gcongr] theorem searchLists_kept (h : IsStart image image') (header : Header) (segments : List Segment)
    (entries : List DynamicEntry) :
    IsKeptBy (searchLists header image segments entries) (searchLists header image' segments entries) := by
  unfold searchLists
  dsimp only
  gcongr

end Dynamic

/-! ## The whole image -/

namespace Object

@[gcongr] theorem stringsAt_kept (h : IsStart image image') (sections : List Section) (index : Nat) :
    IsKeptBy (stringsAt image sections index) (stringsAt image' sections index) := by
  unfold stringsAt
  split
  · rfl
  · gcongr

@[gcongr] theorem checkSymbols_kept (h : IsStart image image') (e : Encoding) (sections : List Section) :
    IsKeptBy (checkSymbols e image sections) (checkSymbols e image' sections) := by
  unfold checkSymbols
  split
  · rfl
  · gcongr

@[gcongr] theorem readSearchLists_kept (h : IsStart image image') (header : Header) (segments : List Segment) :
    IsKeptBy (readSearchLists header image segments) (readSearchLists header image' segments) := by
  unfold readSearchLists
  gcongr with entries
  cases entries with
  | none => rfl
  | some entries => exact Dynamic.searchLists_kept h header segments entries

@[gcongr] theorem relocationsInBounds_le (h : IsStart image image') (sections : List Section) :
    relocationsInBounds image sections ≤ relocationsInBounds image' sections := by
  rw [Bool.le_iff_imp, relocationsInBounds, relocationsInBounds, List.all_eq_true, List.all_eq_true]
  intro hall s hs
  exact Bool.le_iff_imp.1 (sup_le_sup_left (Section.inBounds_le h s) _) (hall s hs)

@[gcongr] theorem firstFits_le (h : IsStart image image') (sections : List Section) (kind : SectionKind) :
    firstFits image sections kind ≤ firstFits image' sections kind := by
  unfold firstFits
  cases sections.find? (·.kind = kind) with
  | none => rfl
  | some s => exact fits_le h s.offset s.size

/-- An image that is read is read alike where the file goes on. -/
theorem read_kept (h : IsStart image image') : IsKeptBy (Object.read image) (Object.read image') := by
  unfold Object.read
  gcongr

/-- The section of version definitions of an image that is read lies within the file. -/
theorem versionSection?_fits {o : Object} {definitions : Section} (hread : Object.read image = .ok o)
    (hfirst : o.versionSection? = some definitions) : image.fits definitions.offset definitions.size = true := by
  simp only [Object.read, bind_eq_ok_iff, require_eq_ok_iff] at hread
  obtain ⟨header, -, segments, -, sections, -, -, -, -, -, lists, -, -, -, -, -, -, hfits, -, -, ho⟩ := hread
  obtain rfl := Except.ok.inj ho
  rw [firstFits, show sections.find? (·.kind = .versionDefinitions) = some definitions from hfirst] at hfits
  exact hfits

end Object

/-! ## The newest version -/

variable {o : Object} {definitions names : Section} {table : StringTable}

theorem IsAccepted.of_isStart (h : IsStart image image') (haccepted : IsAccepted image o) : IsAccepted image' o where
  isMagic := by
    obtain ⟨rest, rfl⟩ := h
    rw [Array.toList_append]
    exact haccepted.isMagic.trans (List.prefix_append _ _)
  isRead := Object.read_kept h o haccepted.isRead

theorem IsLinked.of_isStart (h : IsStart image image') (hlinked : IsLinked image o definitions names) :
    IsLinked image' o definitions names where
  toIsAccepted := hlinked.toIsAccepted.of_isStart h
  isFirst := hlinked.isFirst
  isThere := hlinked.isThere

theorem IsOpened.of_isStart (h : IsStart image image') (hopened : IsOpened image o definitions table) :
    IsOpened image' o definitions table := by
  obtain ⟨names, hlinked, htable⟩ := hopened.isTable
  exact ⟨names, hlinked.of_isStart h, StringTable.read_kept h _ _ table htable⟩

/-- The walk over the definitions of an opened image does not leave their section, and so goes on as in the first file. -/
theorem IsOpened.reachedNames_eq (h : IsStart image image') (hopened : IsOpened image o definitions table) (e : Encoding) :
    reachedNames e image' definitions = reachedNames e image definitions := by
  obtain ⟨names, hlinked, -⟩ := hopened.isTable
  have hfits := Object.versionSection?_fits hlinked.isRead hlinked.isFirst
  rw [reachedNames, reachedNames, h.extract_eq (of_decide_eq_true hfits)]

/-- A newest version that can be told is told alike, and with the same warnings, where the file goes on. -/
theorem newestVersion_eq_of_isStart (h : IsStart image image') {family : String} {v : Version}
    (hv : (newestVersion image family).value = .ok v) : newestVersion image' family = newestVersion image family := by
  cases htable : versionTable image with
  | error fault =>
    rw [AnswerAux.value_of_fault family htable] at hv
    nomatch hv
  | ok opened =>
    obtain ⟨e, definitions, table⟩ := opened
    obtain ⟨o, hopened, -⟩ := AnswerAux.opened_of_table htable
    rw [AnswerAux.newestVersion_of_opened family hopened, AnswerAux.newestVersion_of_opened family (hopened.of_isStart h),
      hopened.reachedNames_eq h]

end LibraryGuard.Elf
