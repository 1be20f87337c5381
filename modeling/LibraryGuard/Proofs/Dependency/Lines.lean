import LibraryGuard.Proofs.Dependency.Report
import LibraryGuard.Proofs.Path.Steps

/-!
# A report is read line by line

`States` says which edge a line states, whatever stands on it: one with an arrow the name before its first arrow, one without the
first word, if there is an address (`edge?_eq_some_iff`). An edge depends on its own line alone, so a report of two parts gives
the edges of the one and then those of the other, and every edge is well formed, also if the report is not
(`parseReport_lineByLine`).
-/

namespace LibraryGuard.Dependency

/-- The place that is read where one is expected: the first word, if it starts with a slash. -/
def placeIn? (s : List Char) : Option Path := ((Text.firstWord? s).filter isPlace).map Path.ofChars

/-- The edge that a line states. Before an arrow there is the name, and behind the first one the place. Without an arrow the first
word is the place, which has the name, or the name alone. -/
inductive States (containing : Path) (line : List Char) : Edge → Prop where
  | named {before after : List Char} (hline : line = before ++ (arrow ++ after)) (hfirst : ¬arrow <:+: before)
      (hname : Text.trim before ≠ []) :
      States containing line ⟨containing, String.ofList (Text.trim before), placeIn? after⟩
  | located {word : List Char} {name : String} (hline : ¬arrow <:+: line) (hmark : addressMark <:+: line)
      (hword : Text.firstWord? line = some word) (hplace : isPlace word = true)
      (hname : (Path.ofChars word).fileName? = some name) :
      States containing line ⟨containing, name, some (Path.ofChars word)⟩
  | alone {word : List Char} (hline : ¬arrow <:+: line) (hmark : addressMark <:+: line)
      (hword : Text.firstWord? line = some word) (hplace : isPlace word = false) :
      States containing line ⟨containing, String.ofList word, none⟩

/-- A text that is not empty and has no blanks at its ends. -/
structure IsTrimmed (s : List Char) : Prop where
  not_nil : s ≠ []
  head_not_blank : ∀ c ∈ s.head?, Text.isBlank c = false
  last_not_blank : ∀ c ∈ s.getLast?, Text.isBlank c = false

/-- What every edge of a report is: about the file that the report is about, with a name on one line that has no blanks at its
ends, and with an absolute place without blanks, if it has one. -/
structure Edge.IsWellFormed (containing : Path) (e : Edge) : Prop where
  containing_eq : e.containing = containing
  name_trimmed : IsTrimmed e.name.toList
  name_oneLine : '\n' ∉ e.name.toList
  place_absolute : ∀ p ∈ e.resolved, p.isAbsolute = true
  place_not_blank : ∀ p ∈ e.resolved, ∀ c ∈ p.chars, Text.isBlank c = false

/-- What an edge of a line without an arrow is: the line has an address, the name no blanks, and the place, if there is one, has
this name. -/
structure Edge.IsAddressed (line : List Char) (e : Edge) : Prop where
  marked : addressMark <:+: line
  name_not_blank : ∀ c ∈ e.name.toList, Text.isBlank c = false
  place_named : ∀ p ∈ e.resolved, p.isNamed e.name = true

/-! ## One line -/

variable {containing : Path} {line : List Char} {e : Edge}

theorem arrow_isMarked : Text.IsMarked '=' arrow := ⟨['>'], rfl, by decide⟩

/-- Blanks around a text do not matter for whether a word occurs in it. -/
theorem Word.infix_append_append_iff (w : Word) {before after : List Char} (hbefore : ∀ c ∈ before, Text.isBlank c)
    (hafter : ∀ c ∈ after, Text.isBlank c) (s : List Char) : w.chars <:+: before ++ s ++ after ↔ w.chars <:+: s := by
  have hlacks : ∀ c, Text.isBlank c = true → c ∉ w.chars := fun c hc hmem =>
    Bool.false_ne_true ((w.not_blank c hmem).symm.trans hc)
  exact Text.infix_append_iff_of_not_mem w.ne_nil (fun c hc => hlacks c (hbefore c hc)) fun c hc => hlacks c (hafter c hc)

/-- The blanks around what a line states say nothing. -/
theorem nameAndPlace?_append_append {before after : List Char} (hbefore : ∀ c ∈ before, Text.isBlank c)
    (hafter : ∀ c ∈ after, Text.isBlank c) (s : List Char) : nameAndPlace? (before ++ s ++ after) = nameAndPlace? s := by
  have hword : Text.firstWord? (before ++ s ++ after) = Text.firstWord? s := Text.firstWord?_append_append hbefore hafter s
  have hmark : Text.contains addressMark (before ++ s ++ after) = Text.contains addressMark s := by
    rw [Bool.eq_iff_iff, Text.contains_iff, Text.contains_iff]
    exact (⟨addressMark, by decide⟩ : Word).infix_append_append_iff hbefore hafter s
  let arrowWord : Word := ⟨arrow, by decide⟩
  cases hcut : Text.cut? arrow s with
  | none =>
    have hcut' : Text.cut? arrow (before ++ s ++ after) = none := by
      rw [Text.cut?_eq_none_iff, arrowWord.infix_append_append_iff hbefore hafter s]
      exact Text.cut?_eq_none_iff.1 hcut
    simp only [nameAndPlace?, hcut, hcut', hword, hmark]
  | some sides =>
    obtain ⟨front, back⟩ := sides
    obtain ⟨rfl, hfirst⟩ := arrow_isMarked.cut?_eq_some_iff.1 hcut
    -- The arrow stays the first one, and the blanks go to the two sides of it.
    have hcut' : Text.cut? arrow (before ++ (front ++ (arrow ++ back)) ++ after) = some (before ++ front, back ++ after) := by
      refine arrow_isMarked.cut?_eq_some_iff.2 ⟨by simp only [List.append_assoc], ?_⟩
      have hside := arrowWord.infix_append_append_iff hbefore (List.forall_mem_nil _) front
      rw [List.append_nil] at hside
      exact mt hside.1 hfirst
    have hname : Text.trim (before ++ front) = Text.trim front := by
      simpa using Text.trim_append_append hbefore (List.forall_mem_nil _) front
    have hplace : Text.firstWord? (back ++ after) = Text.firstWord? back := by
      simpa using Text.firstWord?_append_append (List.forall_mem_nil _) hafter back
    simp only [nameAndPlace?, hcut, hcut', hname, hplace]

/-- So a line need not be trimmed. -/
theorem nameAndPlace?_trim (line : List Char) : nameAndPlace? (Text.trim line) = nameAndPlace? line := by
  obtain ⟨before, after, hbefore, hafter, hline⟩ := Text.exists_eq_trim line
  conv => rhs; rw [hline, nameAndPlace?_append_append hbefore hafter]

/-- A line that can be divided at an arrow gives the name before it. -/
theorem edge?_of_cut {before after : List Char} (h : Text.cut? arrow line = some (before, after)) :
    edge? containing line =
      if Text.trim before = [] then none else some ⟨containing, String.ofList (Text.trim before), placeIn? after⟩ := by
  rw [edge?, nameAndPlace?_trim]
  by_cases hname : Text.trim before = [] <;> simp [nameAndPlace?, h, hname, placeIn?]

/-- A line that cannot gives its first word, if there is an address. -/
theorem edge?_of_no_cut (h : Text.cut? arrow line = none) {word : List Char} (hword : Text.firstWord? line = some word) :
    edge? containing line =
      if Text.contains addressMark line = false then none
      else if isPlace word then
        (Path.ofChars word).fileName?.map fun name => ⟨containing, name, some (Path.ofChars word)⟩
      else some ⟨containing, String.ofList word, none⟩ := by
  obtain ⟨hne, -⟩ := Text.firstWord?_eq_some_iff.1 hword
  rw [edge?, nameAndPlace?_trim]
  cases hmark : Text.contains addressMark line with
  | false => simp [nameAndPlace?, h, hword, hmark]
  | true =>
    cases hplace : isPlace word with
    | false => simp [nameAndPlace?, h, hword, hmark, hplace, hne]
    | true =>
      cases hname : (Path.ofChars word).fileName? with
      | none => simp [nameAndPlace?, h, hword, hmark, hplace, hname]
      | some name => simp [nameAndPlace?, h, hword, hmark, hplace, hname, Path.fileName_ne_nil hname]

/-- A line gives the edge that it states, and no other. -/
theorem edge?_eq_some_iff : edge? containing line = some e ↔ States containing line e := by
  constructor
  · intro h
    cases hcut : Text.cut? arrow line with
    | some sides =>
      obtain ⟨before, after⟩ := sides
      obtain ⟨hline, hfirst⟩ := arrow_isMarked.cut?_eq_some_iff.1 hcut
      rw [edge?_of_cut hcut] at h
      split at h
      · nomatch h
      next hname =>
        obtain rfl := Option.some.inj h
        exact .named hline hfirst hname
    | none =>
      have hline := Text.cut?_eq_none_iff.1 hcut
      cases hword : Text.firstWord? line with
      | none =>
        rw [edge?, nameAndPlace?_trim] at h
        simp [nameAndPlace?, hcut, hword] at h
      | some word =>
        rw [edge?_of_no_cut hcut hword] at h
        split at h
        · nomatch h
        next hmark =>
          rw [Bool.not_eq_false, Text.contains_iff] at hmark
          split at h
          next hplace =>
            obtain ⟨name, hname, rfl⟩ := Option.map_eq_some_iff.1 h
            exact .located hline hmark hword hplace hname
          next hplace =>
            obtain rfl := Option.some.inj h
            exact .alone hline hmark hword (Bool.eq_false_iff.2 hplace)
  · intro h
    cases h with
    | named hline hfirst hname => rw [edge?_of_cut (arrow_isMarked.cut?_eq_some_iff.2 ⟨hline, hfirst⟩), if_neg hname]
    | located hline hmark hword hplace hname =>
      rw [edge?_of_no_cut (Text.cut?_eq_none_iff.2 hline) hword, Text.contains_iff.2 hmark, if_neg (by decide), if_pos hplace, hname]
      rfl
    | alone hline hmark hword hplace =>
      rw [edge?_of_no_cut (Text.cut?_eq_none_iff.2 hline) hword, Text.contains_iff.2 hmark, if_neg (by decide), hplace,
        if_neg (by decide)]

/-- What is trimmed has no blanks at its ends. -/
theorem isTrimmed_trim {s : List Char} (h : Text.trim s ≠ []) : IsTrimmed (Text.trim s) :=
  ⟨h, fun _ => Text.not_blank_of_head?_trim, fun _ => Text.not_blank_of_getLast?_trim⟩

/-- A word has no blanks at its ends either. -/
theorem isTrimmed_of_not_blank {s : List Char} (hne : s ≠ []) (h : ∀ c ∈ s, Text.isBlank c = false) : IsTrimmed s :=
  ⟨hne, fun c hc => h c (List.mem_of_mem_head? hc), fun c hc => h c (List.mem_of_mem_getLast? hc)⟩

/-- The path that a word is starts at the root exactly if the word is a place. -/
theorem isAbsolute_ofChars (word : List Char) : (Path.ofChars word).isAbsolute = isPlace word := by
  simp [Path.isAbsolute, Path.chars, Path.ofChars, isPlace]

/-- A place is an absolute path without blanks. -/
theorem placeIn?_eq_some {s : List Char} {p : Path} (h : placeIn? s = some p) :
    p.isAbsolute = true ∧ ∀ c ∈ p.chars, Text.isBlank c = false := by
  obtain ⟨word, hplace, rfl⟩ := Option.map_eq_some_iff.1 h
  obtain ⟨hword, hplace⟩ := Option.filter_eq_some_iff.1 hplace
  obtain ⟨-, hblank, -⟩ := Text.firstWord?_eq_some_iff.1 hword
  exact ⟨(isAbsolute_ofChars word).trans hplace, by rwa [Path.chars_ofChars]⟩

/-- The file name of a word has only characters of the word. -/
theorem mem_of_fileName? {word : List Char} {name : String} (h : (Path.ofChars word).fileName? = some name) {c : Char}
    (hc : c ∈ name.toList) : c ∈ word := by
  rw [← Path.chars_ofChars word]
  exact (Path.fileName?_infix h).subset hc

/-- An edge that a line states is well formed. -/
theorem States.isWellFormed (h : States containing line e) (honeLine : '\n' ∉ line) : e.IsWellFormed containing := by
  cases h with
  | @named before after hline _ hname =>
    have hpiece : Text.trim before <:+: line := (Text.trim_infix before).trans (hline ▸ (List.prefix_append _ _).isInfix)
    refine ⟨rfl, ?_, ?_, fun p hp => (placeIn?_eq_some hp).1, fun p hp => (placeIn?_eq_some hp).2⟩
    · rw [String.toList_ofList]
      exact isTrimmed_trim hname
    · rw [String.toList_ofList]
      exact fun hnewline => honeLine (List.IsInfix.subset hpiece hnewline)
  | @located word name _ _ hword hplace hname =>
    obtain ⟨-, hblank, -⟩ := Text.firstWord?_eq_some_iff.1 hword
    have hnotBlank : ∀ c ∈ name.toList, Text.isBlank c = false := fun c hc => hblank c (mem_of_fileName? hname hc)
    refine ⟨rfl, isTrimmed_of_not_blank (Path.fileName_ne_nil hname) hnotBlank, ?_, ?_, ?_⟩
    · exact fun hnewline => absurd (hnotBlank _ hnewline) (by decide)
    · rintro _ ⟨⟩
      exact (isAbsolute_ofChars word).trans hplace
    · rintro _ ⟨⟩
      rwa [Path.chars_ofChars]
  | @alone word _ _ hword _ =>
    obtain ⟨hne, hblank, -⟩ := Text.firstWord?_eq_some_iff.1 hword
    refine ⟨rfl, ?_, ?_, nofun, nofun⟩
    · rw [String.toList_ofList]
      exact isTrimmed_of_not_blank hne hblank
    · rw [String.toList_ofList]
      exact fun hnewline => absurd (hblank _ hnewline) (by decide)

/-- An edge that a line without an arrow states has its name, and its place if there is one, from a word before an address. -/
theorem States.isAddressed (h : States containing line e) (hline : ¬arrow <:+: line) : e.IsAddressed line := by
  cases h with
  | @named before after heq =>
    refine absurd ?_ hline
    rw [heq]
    exact ⟨before, after, List.append_assoc ..⟩
  | @located word name _ hmark hword _ hname =>
    obtain ⟨-, hblank, -⟩ := Text.firstWord?_eq_some_iff.1 hword
    refine ⟨hmark, fun c hc => hblank c (mem_of_fileName? hname hc), ?_⟩
    rintro _ ⟨⟩
    exact decide_eq_true hname
  | @alone word _ hmark hword _ =>
    obtain ⟨-, hblank, -⟩ := Text.firstWord?_eq_some_iff.1 hword
    exact ⟨hmark, by rwa [String.toList_ofList], nofun⟩

/-! ## All lines -/

/-- A report gives the edges of the pieces between its line feeds. -/
theorem parseReport_eq (containing : Path) (report : String) :
    parseReport containing report = (report.toList.splitOn '\n').filterMap (edge? containing) := by
  rw [parseReport, Text.filterMap_lines, Text.pieces_eq_splitOn]
  · exact edge?_of_no_mark (by decide) (by decide)
  · exact fun line => edge?_of_trim_eq (Text.trim_dropReturn line)

/-- A single line gives its edge, if it has one. -/
theorem parseReport_line (containing : Path) (h : '\n' ∉ line) :
    parseReport containing (String.ofList line) = (edge? containing line).toList := by
  rw [parseReport_eq, String.toList_ofList, List.splitOn_eq_singleton h]
  cases hedge : edge? containing line with
  | none => rw [List.filterMap_cons_none hedge, List.filterMap_nil, Option.toList_none]
  | some e => rw [List.filterMap_cons_some hedge, List.filterMap_nil, Option.toList_some]

/-- A report is read line by line, and what is read is well formed, whatever stands in the report. The edges of two reports with
a line feed between them are those of the one and then those of the other, so the edges of a report are those of its lines, of
which each gives one at most. Every edge is about the given file and has a name that is not empty, lies on one line and has no
blanks at its ends, and a place that is absolute and has no blanks, if any. An edge of a line without an arrow comes with an
address, its name has no blanks at all, and its place has this name, if any. -/
theorem parseReport_lineByLine (containing : Path) :
    (∀ a b, parseReport containing (a ++ "\n" ++ b) = parseReport containing a ++ parseReport containing b) ∧
      (∀ report, parseReport containing report =
        (report.toList.splitOn '\n').flatMap fun line => parseReport containing (String.ofList line)) ∧
      (∀ line : List Char, '\n' ∉ line → (parseReport containing (String.ofList line)).length ≤ 1) ∧
      (∀ report, ∀ e ∈ parseReport containing report, e.IsWellFormed containing) ∧
      ∀ line : List Char, '\n' ∉ line → ¬arrow <:+: line → ∀ e ∈ parseReport containing (String.ofList line), e.IsAddressed line := by
  have hlines : ∀ report : String, ∀ line ∈ report.toList.splitOn '\n', '\n' ∉ line := fun report line hline =>
    Text.not_mem_of_mem_splitOn hline
  refine ⟨fun a b => ?_, fun report => ?_, fun line hline => ?_, fun report e he => ?_, fun line hline harrow e he => ?_⟩
  · have hsplit : (a ++ "\n" ++ b).toList.splitOn '\n' = a.toList.splitOn '\n' ++ b.toList.splitOn '\n' := by
      rw [← List.splitOn_append_cons_self, String.toList_append, String.toList_append, List.append_assoc]
      rfl
    rw [parseReport_eq, hsplit, List.filterMap_append, ← parseReport_eq, ← parseReport_eq]
  · rw [parseReport_eq, List.filterMap_eq_flatMap_toList]
    exact List.flatMap_congr fun line hline => (parseReport_line containing (hlines report line hline)).symm
  · rw [parseReport_line containing hline]
    cases edge? containing line <;> simp
  · rw [parseReport_eq, List.mem_filterMap] at he
    obtain ⟨line, hline, hedge⟩ := he
    exact (edge?_eq_some_iff.1 hedge).isWellFormed (hlines report line hline)
  · rw [parseReport_line containing hline, Option.mem_toList] at he
    exact (edge?_eq_some_iff.1 he).isAddressed harrow

end LibraryGuard.Dependency
