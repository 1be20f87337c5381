import LibraryGuard.Dependency.Report
import LibraryGuard.Proofs.Text.Blank
import LibraryGuard.Proofs.Text.Search

/-!
# A written report is read back

`Entry` is what a line of a report can state, and `Entry.chars` is how the program that lists dependencies writes it: a name
with an arrow and a place, a name that was not found, a place without a name, a name without a place, or anything that has
neither an arrow nor an address. `parseReport_written` says that a report is parsed to exactly the edges of its entries, in
their order, whatever blanks stand around the entries and whichever way the lines end.
-/

namespace LibraryGuard

/-- A file name is not empty. -/
theorem Path.fileName_ne_nil {p : Path} {name : String} (h : p.fileName? = some name) : name.toList ≠ [] := by
  simp only [fileName?] at h
  split at h
  · exact absurd h (by simp)
  next hlast =>
    obtain rfl := Option.some.inj h
    rw [not_or] at hlast
    simpa using hlast.1

namespace Dependency

/-! ## What a line states -/

/-- Whether a text is a word: not empty, and without blanks. -/
def isWord (s : List Char) : Bool := !s.isEmpty && s.all fun c => !Text.isBlank c

/-- A word of a line. -/
structure Word where
  chars : List Char
  is_word : isWord chars

/-- A word that names a library. -/
structure Name extends Word where
  no_arrow : ¬arrow <:+: chars

/-- A word that is the place of a library. -/
structure Place extends Word where
  is_place : isPlace chars

/-- The digits of addresses. -/
def hexDigits : List Char := "0123456789abcdefABCDEF".toList

/-- An address, by its digits. -/
structure Address where
  digits : List Char
  are_hex : digits.all hexDigits.contains

/-- How an address is written. -/
def Address.chars (a : Address) : List Char := addressMark ++ (a.digits ++ [')'])

/-- What a line of a report states. A place without a name has no arrow in it and ends in a file name, and a name without a
place does not look like one. -/
inductive Entry where
  | placed (name : Name) (place : Place) (address : Address)
  | missing (name : Name)
  | bare (place : Place) (address : Address) (fileName : String) (no_arrow : ¬arrow <:+: place.chars)
      (has_name : (Path.ofChars place.chars).fileName? = some fileName)
  | unplaced (name : Name) (address : Address) (not_place : ¬isPlace name.chars)
  | remark (text : List Char) (one_line : '\n' ∉ text) (no_arrow : ¬arrow <:+: text) (no_address : ¬addressMark <:+: text)

namespace Entry

/-- How an entry is written. -/
def chars : Entry → List Char
  | placed name place address => name.chars ++ ' ' :: (arrow ++ ' ' :: (place.chars ++ ' ' :: address.chars))
  | missing name => name.chars ++ ' ' :: (arrow ++ " not found".toList)
  | bare place address _ _ _ => place.chars ++ ' ' :: address.chars
  | unplaced name address _ => name.chars ++ ' ' :: address.chars
  | remark text _ _ _ => text

/-- The edge that an entry states. -/
def edge? (containing : Path) : Entry → Option Edge
  | placed name place _ => some ⟨containing, String.ofList name.chars, some (Path.ofChars place.chars)⟩
  | missing name => some ⟨containing, String.ofList name.chars, none⟩
  | bare place _ fileName _ _ => some ⟨containing, fileName, some (Path.ofChars place.chars)⟩
  | unplaced name _ _ => some ⟨containing, String.ofList name.chars, none⟩
  | remark _ _ _ _ => none

end Entry

/-- A line of a report: an entry between blanks, and whether a carriage return stands before the line feed. -/
structure Line where
  before : List Char
  entry : Entry
  after : List Char
  withReturn : Bool
  before_blank : ∀ c ∈ before, Text.isBlank c ∧ c ≠ '\n'
  after_blank : ∀ c ∈ after, Text.isBlank c ∧ c ≠ '\n'

namespace Line

/-- What stands on a line. -/
def chars (l : Line) : List Char := l.before ++ l.entry.chars ++ l.after

/-- A line up to its line feed. -/
def upToEnd (l : Line) : List Char := l.chars ++ if l.withReturn then ['\r'] else []

end Line

/-- A report of some lines with their ends, and possibly a last one without an end. -/
def written (ls : List Line) (last : Option Line) : List Char :=
  ls.flatMap (fun l => l.upToEnd ++ ['\n']) ++ (last.map Line.chars).getD []

/-! ## Words and addresses -/

theorem space_blank : ∀ c ∈ [' '], Text.isBlank c := List.forall_mem_singleton.mpr (by decide)

theorem Word.ne_nil (w : Word) : w.chars ≠ [] := by
  have h := w.is_word
  rw [isWord, Bool.and_eq_true] at h
  simpa using h.1

theorem Word.not_blank (w : Word) : ∀ c ∈ w.chars, Text.isBlank c = false := by
  have h := w.is_word
  rw [isWord, Bool.and_eq_true] at h
  simpa using h.2

theorem Word.newline_not_mem (w : Word) : '\n' ∉ w.chars := fun h => absurd (w.not_blank _ h) (by decide)

/-- A line that begins with a word and ends with a character that is not blank has no blanks at its ends. -/
theorem Word.trim_append (w : Word) {rest : List Char} {c : Char} (hlast : rest.getLast? = some c)
    (hc : Text.isBlank c = false) : Text.trim (w.chars ++ rest) = w.chars ++ rest := by
  obtain ⟨d, r, hd⟩ := List.exists_cons_of_ne_nil w.ne_nil
  have hhead : Text.isBlank d = false := w.not_blank d (by simp [hd])
  refine Text.trim_eq_self ?_ ?_
  · simpa [hd] using hhead
  · simpa [List.getLast?_append, hlast] using hc

/-- A word is trimmed to itself, also with a blank behind it. -/
theorem Word.trim_append_blank (w : Word) : Text.trim (w.chars ++ [' ']) = w.chars := by
  rw [Text.trim_append space_blank]
  refine Text.trim_eq_self ?_ ?_
  · exact fun c hc => w.not_blank c (List.mem_of_mem_head? hc)
  · exact fun c hc => w.not_blank c (List.mem_of_mem_getLast? hc)

/-- The word that stands before a blank is the first one. -/
theorem Word.firstWord?_append (w : Word) (before rest : List Char) (hb : ∀ c ∈ before, Text.isBlank c) :
    Text.firstWord? (before ++ w.chars ++ ' ' :: rest) = some w.chars :=
  Text.firstWord?_append hb w.ne_nil w.not_blank (by simp [Text.isBlank])

theorem Address.getLast?_chars (a : Address) : a.chars.getLast? = some ')' := by
  simp [Address.chars, List.getLast?_append]

theorem Address.addressMark_infix (a : Address) : addressMark <:+: a.chars := (List.prefix_append _ _).isInfix

/-- An address has only digits and the characters around them. -/
theorem Address.mem_chars {a : Address} {c : Char} (h : c ∈ a.chars) : c ∈ addressMark ++ hexDigits ++ [')'] := by
  simp only [Address.chars, List.mem_append] at h ⊢
  obtain h | h | h := h
  · exact .inl (.inl h)
  · exact .inl (.inr (List.contains_iff_mem.mp (List.all_eq_true.mp a.are_hex c h)))
  · exact .inr h

theorem Address.newline_not_mem (a : Address) : '\n' ∉ a.chars := fun h => absurd (mem_chars h) (by decide)

theorem Address.no_arrow (a : Address) : ¬arrow <:+: a.chars := fun h =>
  absurd (mem_chars (h.subset (show '=' ∈ arrow by decide))) (by decide)

/-! ## One line -/

variable {containing : Path}

/-- A line gives what its trimmed text tells. -/
theorem edge?_of_trim_eq {s t : List Char} (h : Text.trim s = Text.trim t) : edge? containing s = edge? containing t := by
  rw [edge?, h, ← edge?]

/-- A line with a name before an arrow gives the name, and the first word behind the arrow if that is a place. -/
theorem edge?_arrow (name : Name) {rest : List Char} {c : Char} (hlast : rest.getLast? = some c)
    (hc : Text.isBlank c = false) :
    edge? containing (name.chars ++ ' ' :: (arrow ++ rest)) =
      some ⟨containing, String.ofList name.chars, ((Text.firstWord? rest).filter isPlace).map Path.ofChars⟩ := by
  have htrim : Text.trim (name.chars ++ ' ' :: (arrow ++ rest)) = name.chars ++ ' ' :: (arrow ++ rest) :=
    name.trim_append (by simp [arrow, List.getLast?_cons, hlast]) hc
  have hcut : Text.cut? arrow (name.chars ++ ' ' :: (arrow ++ rest)) = some (name.chars ++ [' '], rest) :=
    Text.cut?_append_cons (by decide) (by decide) name.no_arrow
  simp [edge?, htrim, nameAndPlace?, hcut, name.trim_append_blank, name.ne_nil]

/-- A line with a word before an address gives the word: as the place if it looks like one, and as the name otherwise. A place
without a file name gives nothing. -/
theorem edge?_address (w : Word) (hw : ¬arrow <:+: w.chars) (a : Address) :
    edge? containing (w.chars ++ ' ' :: a.chars) =
      if isPlace w.chars then
        (Path.ofChars w.chars).fileName?.map fun name => ⟨containing, name, some (Path.ofChars w.chars)⟩
      else some ⟨containing, String.ofList w.chars, none⟩ := by
  have htrim : Text.trim (w.chars ++ ' ' :: a.chars) = w.chars ++ ' ' :: a.chars :=
    w.trim_append (c := ')') (by simp [List.getLast?_cons, a.getLast?_chars]) (by decide)
  -- The blank lies between the word and the address, so an arrow would have to lie within one of them.
  have hcut : Text.cut? arrow (w.chars ++ ' ' :: a.chars) = none := by
    rw [Text.cut?_eq_none_iff, Text.infix_append_cons_iff (by decide), not_or]
    exact ⟨hw, a.no_arrow⟩
  have hword : Text.firstWord? (w.chars ++ ' ' :: a.chars) = some w.chars := w.firstWord?_append [] a.chars (by simp)
  have hmark : Text.contains addressMark (w.chars ++ ' ' :: a.chars) = true := by
    rw [Text.contains_iff, Text.infix_append_cons_iff (by decide)]
    exact .inr a.addressMark_infix
  by_cases hplace : isPlace w.chars
  · cases hname : (Path.ofChars w.chars).fileName? with
    | none => simp [edge?, htrim, nameAndPlace?, hcut, hword, hmark, hplace, hname]
    | some name => simp [edge?, htrim, nameAndPlace?, hcut, hword, hmark, hplace, hname, Path.fileName_ne_nil hname]
  · simp [edge?, htrim, nameAndPlace?, hcut, hword, hmark, hplace, w.ne_nil]

/-- A line without an arrow and without an address gives nothing. -/
theorem edge?_of_no_mark {text : List Char} (harrow : ¬arrow <:+: text) (haddress : ¬addressMark <:+: text) :
    edge? containing text = none := by
  have hinfix := Text.trim_infix text
  have hcut : Text.cut? arrow (Text.trim text) = none :=
    Text.cut?_eq_none_iff.mpr fun h => harrow (h.trans hinfix)
  have hmark : Text.contains addressMark (Text.trim text) = false := by
    rw [← Bool.not_eq_true, Text.contains_iff]
    exact fun h => haddress (h.trans hinfix)
  simp [edge?, nameAndPlace?, hcut, hmark]

/-- An entry is written without a line feed. -/
theorem Entry.newline_not_mem (e : Entry) : '\n' ∉ e.chars := by
  cases e with
  | placed name place address =>
    simp [Entry.chars, arrow, name.newline_not_mem, place.newline_not_mem, address.newline_not_mem]
  | missing name => simp [Entry.chars, arrow, name.newline_not_mem]
  | bare place address => simp [Entry.chars, place.newline_not_mem, address.newline_not_mem]
  | unplaced name address => simp [Entry.chars, name.newline_not_mem, address.newline_not_mem]
  | remark text one_line => exact one_line

/-- A written entry gives the edge that it states. -/
theorem edge?_chars (e : Entry) : edge? containing e.chars = e.edge? containing := by
  cases e with
  | placed name place address =>
    have hword : Text.firstWord? (' ' :: (place.chars ++ ' ' :: address.chars)) = some place.chars := by
      simpa using place.firstWord?_append [' '] address.chars space_blank
    have hlast : (' ' :: (place.chars ++ ' ' :: address.chars)).getLast? = some ')' := by
      simp [List.getLast?_append, List.getLast?_cons, address.getLast?_chars]
    rw [Entry.chars, edge?_arrow name hlast (by decide), hword, Option.filter_some, if_pos place.is_place]
    rfl
  | missing name =>
    have hword : (Text.firstWord? " not found".toList).filter isPlace = none := by decide
    rw [Entry.chars, edge?_arrow name (c := 'd') (by decide) (by decide), hword]
    rfl
  | bare place address fileName no_arrow has_name =>
    rw [Entry.chars, edge?_address _ no_arrow, if_pos place.is_place, has_name]
    rfl
  | unplaced name address not_place =>
    rw [Entry.chars, edge?_address _ name.no_arrow, if_neg not_place]
    rfl
  | remark text one_line no_arrow no_address => exact edge?_of_no_mark no_arrow no_address

/-! ## The whole report -/

/-- A line gives the edge of its entry. -/
theorem edge?_line (l : Line) : edge? containing l.chars = l.entry.edge? containing := by
  have htrim : Text.trim l.chars = Text.trim l.entry.chars :=
    Text.trim_append_append (fun c h => (l.before_blank c h).1) (fun c h => (l.after_blank c h).1) _
  rw [edge?_of_trim_eq htrim, edge?_chars]

/-- A line gives the same edge without the carriage return that it may end in. -/
theorem edge?_dropReturn (l : Line) : edge? containing (Text.dropReturn l.upToEnd) = l.entry.edge? containing := by
  have hreturn : ∀ c ∈ (if l.withReturn then ['\r'] else []), Text.isBlank c := by
    split
    · exact List.forall_mem_singleton.mpr (by decide)
    · exact List.forall_mem_nil _
  have htrim : Text.trim (Text.dropReturn l.upToEnd) = Text.trim l.chars :=
    (Text.trim_dropReturn _).trans (Text.trim_append hreturn _)
  rw [edge?_of_trim_eq htrim, edge?_line]

theorem Line.newline_not_mem (l : Line) : '\n' ∉ l.chars := by
  simp only [Line.chars, List.mem_append, not_or]
  exact ⟨⟨fun h => (l.before_blank _ h).2 rfl, l.entry.newline_not_mem⟩, fun h => (l.after_blank _ h).2 rfl⟩

/-- A line ends at its line feed and no earlier. -/
theorem Line.newline_not_mem_upToEnd (l : Line) : '\n' ∉ l.upToEnd := by
  have hreturn : '\n' ∉ (if l.withReturn then ['\r'] else []) := by
    cases l.withReturn <;> decide
  simp only [Line.upToEnd, List.mem_append, not_or]
  exact ⟨l.newline_not_mem, hreturn⟩

/-- A last line without an end is read like the others. If nothing stands on it, it is no line and states nothing either. -/
theorem filterMap_lines_last (last : Option Line) :
    (Text.lines ((last.map Line.chars).getD [])).filterMap (edge? containing) =
      last.toList.filterMap (·.entry.edge? containing) := by
  cases last with
  | none => rfl
  | some l =>
    have hedge : edge? containing l.chars = l.entry.edge? containing := edge?_line l
    rw [Option.map_some, Option.getD_some, Text.lines_of_not_mem l.newline_not_mem]
    split
    next hempty =>
      have hnone : edge? containing [] = none := edge?_of_no_mark (by decide) (by decide)
      rw [List.isEmpty_iff.mp hempty, hnone] at hedge
      simp [← hedge]
    next =>
      rw [List.filterMap_cons, hedge, Option.toList_some, List.filterMap_cons]
      rfl

/-- A report is parsed to the edges that its entries state, in the order of the lines, and to nothing else. It does not matter
which blanks stand around the entries, whether a line ends with a carriage return before its line feed, and whether the last
line ends at all. -/
theorem parseReport_written (containing : Path) (ls : List Line) (last : Option Line) :
    parseReport containing (String.ofList (written ls last)) =
      (ls ++ last.toList).filterMap (·.entry.edge? containing) := by
  rw [parseReport, String.toList_ofList]
  -- The first line feed of the text is the one behind the first line.
  induction ls with
  | nil => exact filterMap_lines_last last
  | cons l ls ih =>
    have hlines : Text.lines (written (l :: ls) last) = Text.dropReturn l.upToEnd :: Text.lines (written ls last) := by
      rw [← Text.lines_append_cons l.newline_not_mem_upToEnd]
      simp [written]
    rw [hlines, List.filterMap_cons, edge?_dropReturn, ih, List.cons_append, List.filterMap_cons]

/-- A line of each kind, with a tabulator before it. The second one ends with a carriage return and a line feed. -/
def listing : List Line :=
  [line false (.unplaced ⟨⟨"linux-vdso.so.1".toList, by decide⟩, by decide⟩ ⟨"00007ffc".toList, by decide⟩ (by decide)),
   line true (.placed ⟨⟨"libm.so.6".toList, by decide⟩, by decide⟩ ⟨⟨"/lib/libm.so.6".toList, by decide⟩, by decide⟩
      ⟨"7F01".toList, by decide⟩),
   line false (.missing ⟨⟨"libgcc_s.so.1".toList, by decide⟩, by decide⟩),
   line false (.remark "statically linked".toList (by decide) (by decide) (by decide)),
   line false (.bare ⟨⟨"/lib64/ld-linux.so.2".toList, by decide⟩, by decide⟩ ⟨"7f02".toList, by decide⟩ "ld-linux.so.2"
      (by decide) (by decide))]
where
  line (withReturn : Bool) (entry : Entry) : Line := ⟨['\t'], entry, [], withReturn, by simp [Text.isBlank], by simp⟩

/-- The report with a line of each kind, as it is printed, and its edges. -/
theorem parseReport_written_listing :
    String.ofList (written listing none) =
        "\tlinux-vdso.so.1 (0x00007ffc)\n" ++ "\tlibm.so.6 => /lib/libm.so.6 (0x7F01)\r\n" ++
          "\tlibgcc_s.so.1 => not found\n" ++ "\tstatically linked\n" ++ "\t/lib64/ld-linux.so.2 (0x7f02)\n" ∧
      parseReport ⟨"/opt/libfoo.so"⟩ (String.ofList (written listing none)) =
        [⟨⟨"/opt/libfoo.so"⟩, "linux-vdso.so.1", none⟩,
         ⟨⟨"/opt/libfoo.so"⟩, "libm.so.6", some ⟨"/lib/libm.so.6"⟩⟩,
         ⟨⟨"/opt/libfoo.so"⟩, "libgcc_s.so.1", none⟩,
         ⟨⟨"/opt/libfoo.so"⟩, "ld-linux.so.2", some ⟨"/lib64/ld-linux.so.2"⟩⟩] :=
  ⟨by decide +kernel, (parseReport_written ⟨"/opt/libfoo.so"⟩ listing none).trans (by decide)⟩

end Dependency

end LibraryGuard
