import LibraryGuard.Text.Blank
import Mathlib.Data.List.Infix
import Mathlib.Data.List.TakeWhile

/-!
# Trimmed texts, first words and lines

Blanks put around a text do not change what it is trimmed to (`trim_append_append`), and a text is trimmed to itself if it
neither begins nor ends with a blank (`trim_eq_self`). The first word of a text is what stands behind its first blanks, up to a
blank or the end (`firstWord?_eq_some_iff`). A line that is followed by a line feed is the first of the lines, without the
carriage return before the line feed (`lines_append_cons`).
-/

namespace LibraryGuard.Text

variable {s before after : List Char}

/-! ## Trimming -/

/-- Blanks before a text are trimmed away. -/
theorem trimLeft_append (h : ∀ c ∈ before, isBlank c) (s : List Char) : trimLeft (before ++ s) = trimLeft s :=
  List.dropWhile_append_of_pos h

/-- Blanks after a text are trimmed away. -/
theorem trimRight_append (h : ∀ c ∈ after, isBlank c) (s : List Char) : trimRight (s ++ after) = trimRight s := by
  rw [trimRight, List.reverse_append, List.dropWhile_append_of_pos (by simpa using h), ← trimRight]

/-- What a text is trimmed to is a piece of it. -/
theorem trim_infix (s : List Char) : trim s <:+: s := by
  have hleft : trimLeft s <:+ s := List.dropWhile_suffix isBlank
  have hright : trimRight (trimLeft s) <+: trimLeft s := by
    rw [← List.reverse_suffix, trimRight, List.reverse_reverse]
    exact List.dropWhile_suffix isBlank
  exact hright.isInfix.trans hleft.isInfix

/-- What a text is trimmed to does not end in a blank. -/
theorem not_blank_of_getLast?_trim {c : Char} (h : (trim s).getLast? = some c) : isBlank c = false := by
  rw [trim, trimRight, List.getLast?_reverse] at h
  simpa [h] using List.head?_dropWhile_not isBlank (trimLeft s).reverse

/-- What a text is trimmed to does not begin with a blank. -/
theorem not_blank_of_head?_trim {c : Char} (h : (trim s).head? = some c) : isBlank c = false := by
  have hstarts : trim s <+: trimLeft s := by
    rw [← List.reverse_suffix, trim, trimRight, List.reverse_reverse]
    exact List.dropWhile_suffix isBlank
  obtain ⟨rest, hrest⟩ := hstarts
  have hhead : (trimLeft s).head? = some c := by rw [← hrest, List.head?_append, h, Option.some_or]
  have hstart := List.head?_dropWhile_not isBlank s
  rw [← trimLeft, hhead] at hstart
  exact hstart

/-- Blanks after a text are trimmed away, whether or not there is anything else in it. -/
theorem trim_append (h : ∀ c ∈ after, isBlank c) (s : List Char) : trim (s ++ after) = trim s := by
  rw [trim, trim, trimLeft, List.dropWhile_append, ← trimLeft]
  cases trimLeft s with
  | nil =>
    rw [← trimLeft, ← List.append_nil after, trimLeft_append h]
    rfl
  | cons c r =>
    rw [if_neg (by simp), trimRight_append h]

/-- Blanks around a text are trimmed away. -/
theorem trim_append_append (hb : ∀ c ∈ before, isBlank c) (ha : ∀ c ∈ after, isBlank c) (s : List Char) :
    trim (before ++ s ++ after) = trim s := by
  rw [trim_append ha, trim, trimLeft_append hb, ← trim]

/-- A text that neither begins nor ends with a blank is trimmed to itself. -/
theorem trim_eq_self (hhead : ∀ c ∈ s.head?, isBlank c = false) (hlast : ∀ c ∈ s.getLast?, isBlank c = false) :
    trim s = s := by
  have hleft : trimLeft s = s := by
    cases s with
    | nil => rfl
    | cons c r => exact List.dropWhile_cons_of_neg (by simp [hhead c rfl])
  rw [trim, hleft, trimRight]
  cases hr : s.reverse with
  | nil => simp_all
  | cons c r =>
    have hc : isBlank c = false := hlast c (by simp [List.getLast?_eq_head?_reverse, hr])
    rw [List.dropWhile_cons_of_neg (by simp [hc]), ← hr, List.reverse_reverse]

/-- A text is what it is trimmed to, with blanks around. -/
theorem exists_eq_trim (s : List Char) :
    ∃ before after, (∀ c ∈ before, isBlank c) ∧ (∀ c ∈ after, isBlank c) ∧ s = before ++ trim s ++ after := by
  refine ⟨s.takeWhile isBlank, ((trimLeft s).reverse.takeWhile isBlank).reverse, ?_, ?_, ?_⟩
  · exact fun c hc => List.mem_takeWhile_imp hc
  · intro c hc
    exact List.mem_takeWhile_imp (List.mem_reverse.1 hc)
  · have hright : trim s ++ ((trimLeft s).reverse.takeWhile isBlank).reverse = trimLeft s := by
      rw [trim, trimRight, ← List.reverse_append, List.takeWhile_append_dropWhile, List.reverse_reverse]
    rw [List.append_assoc, hright, trimLeft, List.takeWhile_append_dropWhile]

/-- Nothing but blanks is trimmed away. -/
theorem mem_trim {c : Char} (hc : isBlank c = false) (h : c ∈ s) : c ∈ trim s := by
  obtain ⟨before, after, hbefore, hafter, hs⟩ := exists_eq_trim s
  rw [hs, List.mem_append, List.mem_append] at h
  rcases h with (h | h) | h
  · exact absurd (hbefore c h) (by simp [hc])
  · exact h
  · exact absurd (hafter c h) (by simp [hc])

/-- Nothing of a trimmed text is lost with the carriage return at the end of a line. -/
theorem trim_dropReturn (s : List Char) : trim (dropReturn s) = trim s := by
  rw [dropReturn]
  split
  next h =>
    obtain ⟨r, rfl⟩ := List.getLast?_eq_some_iff.mp h
    have hreturn : ∀ c ∈ ['\r'], isBlank c := List.forall_mem_singleton.mpr (by decide)
    simpa using (trim_append hreturn r).symm
  next => rfl

/-! ## First words -/

/-- Behind blanks, the first word is what stands before the next blank. -/
theorem firstWord?_append {word rest : List Char} (hb : ∀ c ∈ before, isBlank c) (hne : word ≠ [])
    (hw : ∀ c ∈ word, isBlank c = false) (hrest : ∀ c ∈ rest.head?, isBlank c) :
    firstWord? (before ++ word ++ rest) = some word := by
  obtain ⟨c, r, rfl⟩ := List.exists_cons_of_ne_nil hne
  have hleft : trimLeft (c :: r ++ rest) = c :: r ++ rest := by
    exact List.dropWhile_cons_of_neg (by simp [hw c List.mem_cons_self])
  have hrest : rest.takeWhile (fun c => !isBlank c) = [] := by
    cases rest with
    | nil => rfl
    | cons b rest => exact List.takeWhile_cons_of_neg (by simp [hrest b rfl])
  have htake : (c :: r ++ rest).takeWhile (fun c => !isBlank c) = c :: r := by
    rw [List.takeWhile_append_of_pos (by simpa using hw), hrest, List.append_nil]
  rw [firstWord?, List.append_assoc, trimLeft_append hb, hleft, htake]

/-- The first word of a text stands behind blanks and before a blank, if there is more. -/
theorem firstWord?_eq_some_iff {word : List Char} :
    firstWord? s = some word ↔ word ≠ [] ∧ (∀ c ∈ word, isBlank c = false) ∧
      ∃ before rest, s = before ++ word ++ rest ∧ (∀ c ∈ before, isBlank c) ∧ ∀ c ∈ rest.head?, isBlank c := by
  constructor
  · intro h
    have htake : (trimLeft s).takeWhile (fun c => !isBlank c) = word ∧ word ≠ [] := by
      rw [firstWord?] at h
      split at h
      · nomatch h
      · rename_i hne
        obtain rfl := Option.some.inj h
        exact ⟨rfl, hne⟩
    obtain ⟨rfl, hne⟩ := htake
    refine ⟨hne, ?_, s.takeWhile isBlank, (trimLeft s).dropWhile (fun c => !isBlank c), ?_, ?_, ?_⟩
    · intro c hc
      simpa using List.mem_takeWhile_imp hc
    · rw [List.append_assoc, List.takeWhile_append_dropWhile, trimLeft, List.takeWhile_append_dropWhile]
    · exact fun c hc => List.mem_takeWhile_imp hc
    · intro c hc
      have hstop := List.head?_dropWhile_not (fun c => !isBlank c) (trimLeft s)
      rw [hc] at hstop
      simpa using hstop
  · rintro ⟨hne, hword, before, rest, rfl, hbefore, hrest⟩
    exact firstWord?_append hbefore hne hword hrest

/-- A text that does not begin with a blank begins with its first word. -/
theorem firstWord?_cons {c : Char} (hc : isBlank c = false) (s : List Char) :
    firstWord? (c :: s) = some (c :: s.takeWhile fun d => !isBlank d) := by
  rw [firstWord?, trimLeft, List.dropWhile_cons_of_neg (by simp [hc]), List.takeWhile_cons_of_pos (by simp [hc])]

/-- There is no first word exactly if there are only blanks. -/
theorem firstWord?_eq_none_iff : firstWord? s = none ↔ ∀ c ∈ s, isBlank c := by
  constructor
  · intro h
    have hleft : trimLeft s = [] := by
      cases hs : trimLeft s with
      | nil => rfl
      | cons c r =>
        have hc : isBlank c = false := by
          have hstart := List.head?_dropWhile_not isBlank s
          rw [← trimLeft, hs] at hstart
          exact hstart
        rw [firstWord?, hs, List.takeWhile_cons_of_pos (by simp [hc])] at h
        nomatch h
    rw [trimLeft, List.dropWhile_eq_nil_iff] at hleft
    exact hleft
  · intro h
    have hleft : trimLeft s = [] := List.dropWhile_eq_nil_iff.2 h
    rw [firstWord?, hleft, List.takeWhile_nil]

/-- The first word of a text with a blank in it stands before the blank, or behind it. -/
theorem firstWord?_append_cons {c : Char} (hc : isBlank c = true) (s rest : List Char) :
    firstWord? (s ++ c :: rest) = (firstWord? s).or (firstWord? rest) := by
  cases hs : firstWord? s with
  | none =>
    have hblank : ∀ d ∈ s ++ [c], isBlank d := by
      intro d hd
      rcases List.mem_append.1 hd with hd | hd
      · exact firstWord?_eq_none_iff.1 hs d hd
      · rwa [List.mem_singleton.1 hd]
    rw [Option.none_or, ← List.singleton_append, ← List.append_assoc, firstWord?, trimLeft_append hblank, ← firstWord?]
  | some word =>
    obtain ⟨hne, hword, before, after, rfl, hbefore, hafter⟩ := firstWord?_eq_some_iff.1 hs
    rw [Option.some_or, firstWord?_eq_some_iff]
    refine ⟨hne, hword, before, after ++ c :: rest, List.append_assoc .., hbefore, ?_⟩
    cases after with
    | nil =>
      rintro _ ⟨⟩
      exact hc
    | cons d r => exact hafter

/-- Blanks around a text do not change its first word. -/
theorem firstWord?_append_append (hb : ∀ c ∈ before, isBlank c) (ha : ∀ c ∈ after, isBlank c) (s : List Char) :
    firstWord? (before ++ s ++ after) = firstWord? s := by
  have hright : firstWord? (s ++ after) = firstWord? s := by
    cases after with
    | nil => rw [List.append_nil]
    | cons c r =>
      obtain ⟨hc, hr⟩ := List.forall_mem_cons.1 ha
      rw [firstWord?_append_cons hc, firstWord?_eq_none_iff.2 hr, Option.or_none]
  rw [List.append_assoc, firstWord?, trimLeft_append hb, ← firstWord?, hright]

/-! ## Lines -/

/-- The pieces of a text are those of the library. -/
theorem pieces_eq_splitOn (sep : Char) (s : List Char) : pieces sep s = s.splitOn sep := by
  induction s with
  | nil => rfl
  | cons c r ih =>
    rw [List.splitOn_cons_eq_if_modifyHead, ← ih]
    by_cases h : c = sep
    · rw [h, pieces_cons_self, if_pos (beq_self_eq_true sep)]
    · rw [pieces_cons_of_ne h, if_neg (by simpa using h)]
      obtain ⟨p, ps, hp⟩ := List.exists_cons_of_ne_nil (pieces_ne_nil sep r)
      rw [hp]
      rfl

/-- No piece of a text has the separator in it. -/
theorem not_mem_of_mem_splitOn {sep : Char} {piece : List Char} (h : piece ∈ s.splitOn sep) : sep ∉ piece := by
  induction s generalizing piece with
  | nil =>
    rw [List.mem_singleton.1 h]
    exact List.not_mem_nil
  | cons c r ih =>
    rw [← pieces_eq_splitOn] at h ih
    by_cases hc : c = sep
    · rw [hc, pieces_cons_self, List.mem_cons] at h
      rcases h with rfl | h
      · exact List.not_mem_nil
      · exact ih h
    · obtain ⟨p, ps, hp⟩ := List.exists_cons_of_ne_nil (pieces_ne_nil sep r)
      rw [pieces_cons_of_ne hc, hp, List.headD_cons, List.tail_cons, List.mem_cons] at h
      rw [hp] at ih
      rcases h with rfl | h
      · rw [List.mem_cons, not_or]
        exact ⟨Ne.symm hc, ih List.mem_cons_self⟩
      · exact ih (List.mem_cons_of_mem p h)

/-- A text without the separator is one piece. -/
theorem pieces_of_not_mem {sep : Char} (h : sep ∉ s) : pieces sep s = [s] := by
  rw [pieces_eq_splitOn, List.splitOn_eq_singleton h]

/-- What stands before the first separator is the first piece. -/
theorem pieces_append_cons {sep : Char} (h : sep ∉ s) (rest : List Char) :
    pieces sep (s ++ sep :: rest) = s :: pieces sep rest := by
  rw [pieces_eq_splitOn, List.splitOn_append_cons_self_of_not_mem h, pieces_eq_splitOn]

/-- What stands before the first line feed is the first line. -/
theorem lines_append_cons (h : '\n' ∉ s) (rest : List Char) : lines (s ++ '\n' :: rest) = dropReturn s :: lines rest := by
  have hne := pieces_ne_nil '\n' rest
  rw [lines, pieces_append_cons h, List.dropLast_cons_of_ne_nil hne, List.map_cons, List.cons_append,
    List.getLast?_cons_of_ne_nil hne, ← lines]

/-- A text without a line feed is one line, unless it is empty. -/
theorem lines_of_not_mem (h : '\n' ∉ s) : lines s = if s.isEmpty then [] else [s] := by
  rw [lines, pieces_of_not_mem h]
  rfl

/-- Whatever reads nothing from an empty line, and the same from a line without the carriage return at its end, reads from the
lines of a text what it reads from the pieces between the line feeds. -/
theorem filterMap_lines {α : Type} {read : List Char → Option α} (hnil : read [] = none)
    (hreturn : ∀ line, read (dropReturn line) = read line) (s : List Char) :
    (lines s).filterMap read = (pieces '\n' s).filterMap read := by
  obtain ⟨front, last, hpieces⟩ : ∃ front last, pieces '\n' s = front ++ [last] :=
    ⟨_, _, (List.dropLast_append_getLast (pieces_ne_nil '\n' s)).symm⟩
  have hlast : (if last.isEmpty then [] else [last]).filterMap read = [last].filterMap read := by
    split
    next hempty => simp [List.isEmpty_iff.1 hempty, hnil]
    next => rfl
  have hfront : (front.map dropReturn).filterMap read = front.filterMap read := by
    rw [List.filterMap_map]
    exact List.filterMap_congr fun line _ => hreturn line
  rw [lines, hpieces, List.dropLast_concat, List.getLast?_concat, Option.getD_some, List.filterMap_append, hfront, hlast,
    List.filterMap_append]

end LibraryGuard.Text
