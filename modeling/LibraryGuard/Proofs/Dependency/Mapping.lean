import LibraryGuard.Proofs.Dependency.Lines
import LibraryGuard.Proofs.Dependency.Walk

/-!
# Which lines lead to the target

A line that states where a library is mapped (`Mapping`) has the place alone, or a name, an arrow and the place, and then the
address. Its place ends for the program at the first blank, and its name at the first arrow, wherever these stand. So a line
whose place has the target's name is found exactly if that is still to be seen from what is read of it (`Mapping.IsFound`). If
the line is plain it is (`IsPlain.isFound`), and if the place is in a directory with a blank in its name it need not be
(`not_found_blankDirectory`). What a walk answers about a file with such a line in its report is `mapping_found_iff_isFound`.
-/

namespace LibraryGuard.Dependency

/-- A line that states where a library is mapped: the place and the address, with or without a name before. -/
inductive Mapping where
  | alone (place : List Char) (address : Address)
  | named (name place : List Char) (address : Address)

/-- A text begins with the place of a library, perhaps behind blanks: what stands before the next blank is absolute, and has the
library's name. -/
def BeginsWithPlace (s : List Char) (target : String) : Prop :=
  ∃ blanks word rest, s = blanks ++ word ++ rest ∧ (∀ c ∈ blanks, Text.isBlank c) ∧ (∀ c ∈ word, Text.isBlank c = false) ∧
    (∀ c ∈ rest.head?, Text.isBlank c) ∧ (Path.ofChars word).isAbsolute = true ∧ (Path.ofChars word).isNamed target = true

namespace Mapping

/-- The place that a line states. -/
def place : Mapping → Path
  | alone place _ => Path.ofChars place
  | named _ place _ => Path.ofChars place

/-- How a line is written. -/
def chars : Mapping → List Char
  | alone place address => place ++ ' ' :: address.chars
  | named name place address => name ++ ' ' :: (arrow ++ ' ' :: (place ++ ' ' :: address.chars))

/-- A line stands in a report with blanks around it. -/
def StandsOn (m : Mapping) (line : List Char) : Prop :=
  ∃ before after, line = before ++ m.chars ++ after ∧ (∀ c ∈ before, Text.isBlank c) ∧ ∀ c ∈ after, Text.isBlank c

/-- The place of a line is an absolute path with a library's name. -/
structure LeadsTo (m : Mapping) (target : String) : Prop where
  is_absolute : m.place.isAbsolute = true
  is_named : m.place.isNamed target = true

/-- A line is plain if its place has no blanks, and what stands before its place has no arrow. -/
inductive IsPlain : Mapping → Prop where
  | alone {place : List Char} {address : Address} (no_blank : ∀ c ∈ place, Text.isBlank c = false) (no_arrow : ¬arrow <:+: place) :
      IsPlain (.alone place address)
  | named {name place : List Char} {address : Address} (no_blank : ∀ c ∈ place, Text.isBlank c = false)
      (no_arrow : ¬arrow <:+: name) (has_name : Text.trim name ≠ []) : IsPlain (.named name place address)

/-- A library is seen in a line. The first arrow of the line divides it, also if it belongs to a place or to a name: before it
there is the name, and behind it the place, up to its first blank. -/
inductive IsFound (target : String) : Mapping → Prop where
  | alone {place : List Char} {address : Address} (no_arrow : ¬arrow <:+: place) (h : BeginsWithPlace place target) :
      IsFound target (.alone place address)
  | aloneDivided {before after : List Char} {address : Address} (no_arrow : ¬arrow <:+: before)
      (h : BeginsWithPlace after target) : IsFound target (.alone (before ++ (arrow ++ after)) address)
  | named {name place : List Char} {address : Address} (no_arrow : ¬arrow <:+: name) (has_name : Text.trim name ≠ [])
      (h : Text.trim name = target.toList ∨ BeginsWithPlace place target) : IsFound target (.named name place address)
  | namedDivided {before after place : List Char} {address : Address} (no_arrow : ¬arrow <:+: before)
      (has_name : Text.trim before ≠ []) (h : Text.trim before = target.toList ∨ BeginsWithPlace after target) :
      IsFound target (.named (before ++ (arrow ++ after)) place address)

end Mapping

/-! ## Places at the front of a text -/

variable {target : String} {s rest : List Char} {c : Char}

/-- A place without blanks is read whole. -/
theorem beginsWithPlace_of_not_blank (hblank : ∀ c ∈ s, Text.isBlank c = false) (habsolute : (Path.ofChars s).isAbsolute = true)
    (hnamed : (Path.ofChars s).isNamed target = true) : BeginsWithPlace s target :=
  ⟨[], s, [], (List.append_nil s).symm, nofun, hblank, nofun, habsolute, hnamed⟩

/-- A text begins with the place of a library exactly if this is the place that is read in it. -/
theorem beginsWithPlace_iff : BeginsWithPlace s target ↔ ∃ p, placeIn? s = some p ∧ p.isNamed target = true := by
  constructor
  · rintro ⟨blanks, word, rest, rfl, hblanks, hword, hrest, habsolute, hnamed⟩
    rw [isAbsolute_ofChars] at habsolute
    have hne : word ≠ [] := by
      rintro rfl
      nomatch habsolute
    refine ⟨Path.ofChars word, ?_, hnamed⟩
    rw [placeIn?, Text.firstWord?_append hblanks hne hword hrest, Option.filter_some, if_pos habsolute, Option.map_some]
  · rintro ⟨p, hp, hnamed⟩
    obtain ⟨word, hread, rfl⟩ := Option.map_eq_some_iff.1 hp
    obtain ⟨hread, hplace⟩ := Option.filter_eq_some_iff.1 hread
    obtain ⟨-, hword, blanks, rest, rfl, hblanks, hrest⟩ := Text.firstWord?_eq_some_iff.1 hread
    exact ⟨blanks, word, rest, rfl, hblanks, hword, hrest, (isAbsolute_ofChars word).trans hplace, hnamed⟩

/-- No place is read where a text begins with a character that is neither a blank nor a slash. -/
theorem placeIn?_cons (hc : Text.isBlank c = false) (hslash : c ≠ '/') (s : List Char) : placeIn? (c :: s) = none := by
  rw [placeIn?, Text.firstWord?_cons hc, Option.filter_some, if_neg (by simpa [isPlace] using hslash), Option.map_none]

/-- A blank ends a place, and if there is none before the blank, what stands behind it counts. -/
theorem placeIn?_append_cons (hc : Text.isBlank c = true) (hrest : placeIn? rest = none) (s : List Char) :
    placeIn? (s ++ c :: rest) = placeIn? s := by
  rw [placeIn?, Text.firstWord?_append_cons hc]
  cases hs : Text.firstWord? s with
  | none =>
    rw [Option.none_or, ← placeIn?, hrest, placeIn?, hs]
    rfl
  | some word => rw [Option.some_or, placeIn?, hs]

/-- A blank in front of a text does not matter. -/
theorem placeIn?_cons_blank (hc : Text.isBlank c = true) (s : List Char) : placeIn? (c :: s) = placeIn? s := by
  rw [← List.nil_append (c :: s), placeIn?, Text.firstWord?_append_cons hc]
  rfl

/-- An address is no place. -/
theorem Address.placeIn?_chars (a : Address) : placeIn? a.chars = none := placeIn?_cons (by decide) (by decide) _

/-! ## Lines that lead to a library -/

variable {containing : Path} {line before after : List Char}

/-- A line gives an edge that leads to a library. -/
def LineLeads (containing : Path) (line : List Char) (target : String) : Prop :=
  ∃ e, edge? containing line = some e ∧ e.leadsTo target = true

/-- A line that is divided at an arrow leads to the library that it names before the arrow, and to that of the place behind it. -/
theorem lineLeads_of_cut (h : Text.cut? arrow line = some (before, after)) :
    LineLeads containing line target ↔
      Text.trim before ≠ [] ∧ (Text.trim before = target.toList ∨ ∃ p, placeIn? after = some p ∧ p.isNamed target = true) := by
  rw [LineLeads, edge?_of_cut h]
  by_cases hname : Text.trim before = []
  · simp [hname]
  · rw [if_neg hname]
    simp only [Option.some.injEq, exists_eq_left', Walker.leadsTo_iff, ← String.toList_inj, String.toList_ofList]
    exact (and_iff_right hname).symm

/-- A line without an arrow that begins with a place leads to the library of this place, if there is an address. -/
theorem lineLeads_of_place (h : Text.cut? arrow line = none) (hmark : addressMark <:+: line) {word : List Char}
    (hword : Text.firstWord? line = some word) (hplace : isPlace word = true) :
    LineLeads containing line target ↔ (Path.ofChars word).isNamed target = true := by
  rw [LineLeads, edge?_of_no_cut h hword, Text.contains_iff.2 hmark, if_neg (by decide), if_pos hplace]
  cases hname : (Path.ofChars word).fileName? with
  | none => simp [Path.isNamed, hname]
  | some name => simp [Path.isNamed, hname, Walker.leadsTo_iff]

namespace Mapping

variable {place name : List Char} {address : Address}

/-- A line that begins with a place, before which there is no arrow, leads to the library of what is read of the place. -/
theorem lineLeads_alone (habsolute : isPlace place = true) (harrow : ¬arrow <:+: place) :
    LineLeads containing (alone place address).chars target ↔ BeginsWithPlace place target := by
  have hcut : Text.cut? arrow (place ++ ' ' :: address.chars) = none := by
    rw [Text.cut?_eq_none_iff, Text.infix_append_cons_iff (by decide), not_or]
    exact ⟨harrow, address.no_arrow⟩
  have hmark : addressMark <:+: place ++ ' ' :: address.chars := by
    rw [Text.infix_append_cons_iff (by decide)]
    exact .inr address.addressMark_infix
  obtain ⟨r, rfl⟩ : ∃ r, place = '/' :: r := List.head?_eq_some_iff.1 (of_decide_eq_true habsolute)
  have hword := Text.firstWord?_cons (show Text.isBlank '/' = false by decide) r
  have hread : Text.firstWord? ('/' :: r ++ ' ' :: address.chars) = some ('/' :: r.takeWhile fun d => !Text.isBlank d) := by
    rw [Text.firstWord?_append_cons (by decide), hword, Option.some_or]
  rw [chars, lineLeads_of_place hcut hmark hread rfl, beginsWithPlace_iff, placeIn?, hword]
  simp [isPlace]

/-- If the place has an arrow in it, the line leads to the library of the place that is read behind the arrow. -/
theorem lineLeads_aloneDivided (htarget : Path.IsFileName target) (habsolute : isPlace (before ++ (arrow ++ after)) = true)
    (hfirst : ¬arrow <:+: before) :
    LineLeads containing (alone (before ++ (arrow ++ after)) address).chars target ↔ BeginsWithPlace after target := by
  have hcut : Text.cut? arrow (before ++ (arrow ++ after) ++ ' ' :: address.chars) = some (before, after ++ ' ' :: address.chars) :=
    arrow_isMarked.cut?_eq_some_iff.2 ⟨by simp only [List.append_assoc], hfirst⟩
  -- What stands before the arrow has a slash, so it is a name, but not that of a library.
  have hslash : '/' ∈ Text.trim before := by
    cases before with
    | nil => nomatch habsolute
    | cons c r =>
      have hc : c = '/' := by simpa [isPlace] using habsolute
      exact Text.mem_trim (by decide) (hc ▸ List.mem_cons_self)
  have hname : Text.trim before ≠ target.toList := fun h => htarget.no_slash (h ▸ hslash)
  rw [chars, lineLeads_of_cut hcut, placeIn?_append_cons (by decide) address.placeIn?_chars, ← beginsWithPlace_iff,
    and_iff_right (List.ne_nil_of_mem hslash), or_iff_right hname]

/-- A line with a name without an arrow leads to the library of this name, and to the library of what is read of the place. -/
theorem lineLeads_named (harrow : ¬arrow <:+: name) :
    LineLeads containing (named name place address).chars target ↔
      Text.trim name ≠ [] ∧ (Text.trim name = target.toList ∨ BeginsWithPlace place target) := by
  have hcut : Text.cut? arrow (name ++ ' ' :: (arrow ++ ' ' :: (place ++ ' ' :: address.chars))) =
      some (name ++ [' '], ' ' :: (place ++ ' ' :: address.chars)) := Text.cut?_append_cons (by decide) (by decide) harrow
  rw [chars, lineLeads_of_cut hcut, Text.trim_append space_blank, placeIn?_cons_blank (by decide),
    placeIn?_append_cons (by decide) address.placeIn?_chars, ← beginsWithPlace_iff]

/-- If the name has an arrow in it, the line leads to the library that is named before it, and to the one of the place that is
read behind it, in the name. -/
theorem lineLeads_namedDivided (hfirst : ¬arrow <:+: before) :
    LineLeads containing (named (before ++ (arrow ++ after)) place address).chars target ↔
      Text.trim before ≠ [] ∧ (Text.trim before = target.toList ∨ BeginsWithPlace after target) := by
  have hcut : Text.cut? arrow (named (before ++ (arrow ++ after)) place address).chars =
      some (before, after ++ ' ' :: (arrow ++ ' ' :: (place ++ ' ' :: address.chars))) :=
    arrow_isMarked.cut?_eq_some_iff.2 ⟨by simp only [chars, List.append_assoc], hfirst⟩
  have hrest : placeIn? (arrow ++ ' ' :: (place ++ ' ' :: address.chars)) = none := placeIn?_cons (by decide) (by decide) _
  rw [lineLeads_of_cut hcut, placeIn?_append_cons (by decide) hrest, ← beginsWithPlace_iff]

variable {m : Mapping}

/-- The place of a line that is stated alone begins with a slash. -/
theorem LeadsTo.isPlace (h : (alone place address).LeadsTo target) : isPlace place = true :=
  (isAbsolute_ofChars place).symm.trans h.is_absolute

/-- A line that states a place of a library leads to the library exactly if the library is seen in it. -/
theorem lineLeads_iff (htarget : Path.IsFileName target) (hleads : m.LeadsTo target) :
    LineLeads containing m.chars target ↔ m.IsFound target := by
  constructor
  · intro h
    -- The line is divided at its first arrow, and this can belong to what stands before the address.
    cases m with
    | alone place address =>
      by_cases harrow : arrow <:+: place
      · obtain ⟨before, after, rfl, hfirst⟩ := arrow_isMarked.exists_first harrow
        exact .aloneDivided hfirst ((lineLeads_aloneDivided htarget hleads.isPlace hfirst).1 h)
      · exact .alone harrow ((lineLeads_alone hleads.isPlace harrow).1 h)
    | named name place address =>
      by_cases harrow : arrow <:+: name
      · obtain ⟨before, after, rfl, hfirst⟩ := arrow_isMarked.exists_first harrow
        obtain ⟨hname, hseen⟩ := (lineLeads_namedDivided hfirst).1 h
        exact .namedDivided hfirst hname hseen
      · obtain ⟨hname, hseen⟩ := (lineLeads_named harrow).1 h
        exact .named harrow hname hseen
  · intro h
    cases h with
    | alone harrow hplace => exact (lineLeads_alone hleads.isPlace harrow).2 hplace
    | aloneDivided hfirst hplace => exact (lineLeads_aloneDivided htarget hleads.isPlace hfirst).2 hplace
    | named harrow hname hseen => exact (lineLeads_named harrow).2 ⟨hname, hseen⟩
    | namedDivided hfirst hname hseen => exact (lineLeads_namedDivided hfirst).2 ⟨hname, hseen⟩

/-- In a plain line the library is seen. -/
theorem IsPlain.isFound (h : m.IsPlain) (hleads : m.LeadsTo target) : m.IsFound target := by
  cases h with
  | alone hblank harrow =>
    exact .alone harrow (beginsWithPlace_of_not_blank hblank hleads.is_absolute hleads.is_named)
  | named hblank harrow hname =>
    exact .named harrow hname (.inr (beginsWithPlace_of_not_blank hblank hleads.is_absolute hleads.is_named))

/-- The blanks around what a line states do not matter. -/
theorem StandsOn.lineLeads_iff (h : m.StandsOn line) : LineLeads containing line target ↔ LineLeads containing m.chars target := by
  obtain ⟨before, after, rfl, hbefore, hafter⟩ := h
  rw [LineLeads, edge?_of_trim_eq (Text.trim_append_append hbefore hafter _), ← LineLeads]

end Mapping

/-! ## Files whose report has such a line -/

variable {w : Walker} {files : Files} {path : Path} {report : String}

/-- A line gives an edge to a library exactly if the line by itself is a report that has one. -/
theorem lineLeads_iff_parseReport (h : '\n' ∉ line) :
    LineLeads containing line target ↔ ∃ e ∈ parseReport containing (String.ofList line), e.leadsTo target = true := by
  simp only [LineLeads, parseReport_line containing h, Option.mem_toList]

/-- A file that exists leads to the target exactly if it has the target's name or a line of its report leads to the target. -/
theorem dependsOnTarget_iff_lineLeads (hpresent : files.isPresent path = true) (htarget : Path.IsFileName w.target)
    (hdepth : 1 ≤ w.maxDepth) (hreport : w.lister path = .ok report) :
    (w.dependsOnTarget files path).value = true ↔
      path.isNamed w.target = true ∨ ∃ line ∈ report.toList.splitOn '\n', LineLeads path line w.target := by
  have hself : (⟨w.target⟩ : Path).isNamed w.target = true := (Path.isNamed_self_iff w.target).2 htarget
  rw [Walker.dependsOnTarget, Walker.walk_value_iff, Walker.LeadsToTarget, and_iff_right hself, and_iff_right hdepth,
    and_iff_right hpresent, Walker.ReportsTarget, hreport]
  simp only [Except.ok.injEq, exists_eq_left', parseReport_eq, List.mem_filterMap, LineLeads, Walker.leadsTo_iff]
  refine or_congr_right ⟨?_, ?_⟩
  · rintro ⟨e, ⟨line, hline, hedge⟩, hleads⟩
    exact ⟨line, hline, e, hedge, hleads⟩
  · rintro ⟨line, hline, e, hedge, hleads⟩
    exact ⟨e, ⟨line, hline, hedge⟩, hleads⟩

/-- What a walk answers about a file whose report has a line with a place of the target. If the line is plain, the file leads to
the target. In general it does exactly if it has the target's name, or the target is seen in the line, or another line of the
report leads to the target: the place ends at its first blank, and the first arrow of a line divides it. -/
theorem mapping_found_iff_isFound {w : Walker} {files : Files} {path : Path} {report : String}
    (hpresent : files.isPresent path = true) (htarget : Path.IsFileName w.target) (hdepth : 1 ≤ w.maxDepth)
    (hreport : w.lister path = .ok report) {m : Mapping} (hleads : m.LeadsTo w.target) {line : List Char}
    (hline : line ∈ report.toList.splitOn '\n') (hstands : m.StandsOn line) :
    let answer := (w.dependsOnTarget files path).value
    (m.IsPlain → answer = true) ∧
      (answer = true ↔
        path.isNamed w.target = true ∨ m.IsFound w.target ∨
          ∃ other ∈ report.toList.splitOn '\n', other ≠ line ∧
            ∃ e ∈ parseReport path (String.ofList other), e.leadsTo w.target = true) := by
  intro answer
  have hanswer : answer = true ↔ path.isNamed w.target = true ∨ ∃ line ∈ report.toList.splitOn '\n', LineLeads path line w.target :=
    dependsOnTarget_iff_lineLeads hpresent htarget hdepth hreport
  have hfound : LineLeads path line w.target ↔ m.IsFound w.target :=
    hstands.lineLeads_iff.trans (Mapping.lineLeads_iff htarget hleads)
  refine ⟨fun hplain => hanswer.2 (.inr ⟨line, hline, hfound.2 (hplain.isFound hleads)⟩), hanswer.trans (or_congr_right ?_)⟩
  constructor
  · rintro ⟨other, hother, hedge⟩
    by_cases hsame : other = line
    · exact .inl (hfound.1 (hsame ▸ hedge))
    · exact .inr ⟨other, hother, hsame, (lineLeads_iff_parseReport (Text.not_mem_of_mem_splitOn hother)).1 hedge⟩
  · rintro (hseen | ⟨other, hother, -, hedge⟩)
    · exact ⟨line, hline, hfound.2 hseen⟩
    · exact ⟨other, hother, (lineLeads_iff_parseReport (Text.not_mem_of_mem_splitOn hother)).2 hedge⟩

/-- A file system with one file. -/
def oneFile (path : Path) : Files := ⟨fun p => p = path, fun p => p = path, fun _ => .ok #[]⟩

/-- A walk that is given the same report about every file. -/
def reporting (report : String) : Walker := ⟨fun _ => .ok report, "libstdc++.so.6", 4⟩

/-- An arrow in the place of a plain line does not matter. -/
theorem mapping_found_arrowInPlace :
    let path : Path := ⟨"/opt/libfoo.so"⟩
    let report := "\tlibm.so.6 => not found\n\tlibx.so.1 => /opt/a=>b/libstdc++.so.6 (0x7f02)\r\n"
    let line := "\tlibx.so.1 => /opt/a=>b/libstdc++.so.6 (0x7f02)\r".toList
    let m : Mapping := .named "libx.so.1".toList "/opt/a=>b/libstdc++.so.6".toList ⟨"7f02".toList, by decide⟩
    (oneFile path).isPresent path = true ∧ Path.IsFileName "libstdc++.so.6" ∧ m.LeadsTo "libstdc++.so.6" ∧ m.IsPlain ∧
      line ∈ report.toList.splitOn '\n' ∧ m.StandsOn line ∧ ((reporting report).dependsOnTarget (oneFile path) path).value = true := by
  intro path report line m
  have hpresent : (oneFile path).isPresent path = true := by decide
  have htarget : Path.IsFileName "libstdc++.so.6" := by constructor <;> decide
  have hreport : (reporting report).lister path = .ok report := rfl
  have hleads : m.LeadsTo "libstdc++.so.6" := ⟨by decide, by decide⟩
  have hplain : m.IsPlain :=
    .named (Word.not_blank ⟨"/opt/a=>b/libstdc++.so.6".toList, by decide⟩) (by decide) (by decide)
  have hline : line ∈ report.toList.splitOn '\n' := by decide +kernel
  have hstands : m.StandsOn line :=
    ⟨['\t'], ['\r'], by decide, List.forall_mem_singleton.2 (by decide), List.forall_mem_singleton.2 (by decide)⟩
  exact ⟨hpresent, htarget, hleads, hplain, hline, hstands,
    (mapping_found_iff_isFound hpresent htarget (by decide) hreport hleads hline hstands).1 hplain⟩

/-- Not every file whose report has a line with a place of the target leads to it: a place in a directory with a blank in its name
is not found. -/
theorem not_found_blankDirectory :
    ¬ ∀ (w : Walker) (files : Files) (path : Path) (report : String) (m : Mapping) (line : List Char),
        files.isPresent path = true → Path.IsFileName w.target → 1 ≤ w.maxDepth → w.lister path = .ok report →
          m.LeadsTo w.target → line ∈ report.toList.splitOn '\n' → m.StandsOn line →
            (w.dependsOnTarget files path).value = true := by
  intro hclaim
  let path : Path := ⟨"app/libfoo.so"⟩
  let report := "/opt/my app/lib/libstdc++.so.6 (0x00007f2b1c600000)\n"
  let m : Mapping := .alone "/opt/my app/lib/libstdc++.so.6".toList ⟨"00007f2b1c600000".toList, by decide⟩
  have htarget : Path.IsFileName "libstdc++.so.6" := by constructor <;> decide
  have hstands : m.StandsOn m.chars := ⟨[], [], by decide, List.forall_mem_nil _, List.forall_mem_nil _⟩
  have hfound : ((reporting report).dependsOnTarget (oneFile path) path).value = true :=
    hclaim (reporting report) (oneFile path) path report m m.chars (by decide) htarget (by decide) rfl ⟨by decide, by decide⟩
      (by decide +kernel) hstands
  -- The place is read as `/opt/my`, and this is also the name that the line gives.
  have hmissed : ((reporting report).dependsOnTarget (oneFile path) path).value = false := by decide +kernel
  exact Bool.false_ne_true (hmissed.symm.trans hfound)

end LibraryGuard.Dependency
