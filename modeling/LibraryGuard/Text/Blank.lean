/-!
# Blanks, words and lines

Blanks are the characters with Unicode's White_Space property. A text is handled as its list of characters. `trim` removes
the blanks at both ends, `firstWord?` is the first run of other characters, and `lines` are the pieces between line feeds,
each without the carriage return before its line feed.
-/

namespace LibraryGuard.Text

/-- A character with Unicode's White_Space property. -/
def isBlank (c : Char) : Bool :=
  let n := c.toNat
  (0x09 ≤ n && n ≤ 0x0D) || n == 0x20 || n == 0x85 || n == 0xA0 || n == 0x1680 || (0x2000 ≤ n && n ≤ 0x200A) ||
    n == 0x2028 || n == 0x2029 || n == 0x202F || n == 0x205F || n == 0x3000

/-- The text from its first character that is not blank. -/
def trimLeft (s : List Char) : List Char := s.dropWhile isBlank

/-- The text up to its last character that is not blank. -/
def trimRight (s : List Char) : List Char := (s.reverse.dropWhile isBlank).reverse

/-- The text without the blanks at its two ends. -/
def trim (s : List Char) : List Char := trimRight (trimLeft s)

/-- The first run of characters that are not blank, if there is one. -/
def firstWord? (s : List Char) : Option (List Char) :=
  match (trimLeft s).takeWhile (fun c => !isBlank c) with
  | [] => none
  | w => some w

/-- The pieces of a text between the occurrences of a character: always one more than there are occurrences. -/
def pieces (sep : Char) (s : List Char) : List (List Char) :=
  s.foldr (fun c ps => if c = sep then [] :: ps else (c :: ps.headD []) :: ps.tail) [[]]

/-- A text without the carriage return that it may end in. -/
def dropReturn (s : List Char) : List Char :=
  if s.getLast? = some '\r' then s.dropLast else s

/-- The lines of a text: a line feed, or a carriage return and a line feed, ends a line, and what follows the last line feed
is a line if it is not empty. -/
def lines (s : List Char) : List (List Char) :=
  let ps := pieces '\n' s
  let last := ps.getLast?.getD []
  ps.dropLast.map dropReturn ++ (if last.isEmpty then [] else [last])

@[simp] theorem pieces_nil (sep : Char) : pieces sep [] = [[]] := rfl

theorem pieces_cons_self (sep : Char) (s : List Char) : pieces sep (sep :: s) = [] :: pieces sep s := by
  simp [pieces]

theorem pieces_cons_of_ne {sep c : Char} (h : c ≠ sep) (s : List Char) :
    pieces sep (c :: s) = (c :: (pieces sep s).headD []) :: (pieces sep s).tail := by
  simp [pieces, h]

theorem pieces_ne_nil (sep : Char) (s : List Char) : pieces sep s ≠ [] := by
  cases s with
  | nil => simp
  | cons c r =>
    by_cases h : c = sep
    · simp [h, pieces_cons_self]
    · simp [pieces_cons_of_ne h]

end LibraryGuard.Text
