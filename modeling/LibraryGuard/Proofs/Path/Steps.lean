import LibraryGuard.FileTree
import LibraryGuard.Proofs.Path.FileName
import LibraryGuard.Proofs.Text.Blank

/-!
# The names in a path

The names in a path are the steps that it takes, without those that stay where they are (`names_steps`). A path that ends in a
file name (`EndsIn`) takes that name as its last step (`EndsIn.getLast?_steps`), and its parent is what stands before it, less
what is skipped at the end (`EndsIn.parent?_eq`). A path to which a file name is joined ends in it (`endsIn_join`).
-/

namespace LibraryGuard.Path

variable {s before : List Char} {p : Path} {name : String}

@[simp]
theorem chars_ofChars (s : List Char) : (ofChars s).chars = s := String.toList_ofList

/-- The names between the slashes of a path. -/
def names (s : List Char) : List String := (((s.splitOn '/').filter (· ≠ [])).map String.ofList).filter (· ≠ ".")

/-- A slash keeps the names on its two sides apart. -/
theorem names_append (s t : List Char) : names (s ++ '/' :: t) = names s ++ names t := by
  simp only [names, List.splitOn_append_cons_self, List.filter_append, List.map_append]

/-- A slash in front adds no name. -/
theorem names_cons (s : List Char) : names ('/' :: s) = names s := names_append [] s

/-- A slash at the end adds no name. -/
theorem names_concat (s : List Char) : names (s ++ ['/']) = names s := (names_append s []).trans (List.append_nil _)

/-- Nor does a point behind it. -/
theorem names_concat_point (s : List Char) : names (s ++ ['/', '.']) = names s :=
  (names_append s ['.']).trans (List.append_nil _)

/-- The steps of a path that do not stay where they are take its names. -/
theorem names_steps (p : Path) : p.steps.filter (· ≠ ".") = names p.chars := by
  rw [steps, List.filter_append, Text.pieces_eq_splitOn, names]
  by_cases h : p.chars.getLast? = some '/' <;> simp [h]

/-! ## Paths that end in a file name -/

/-- Nothing, or a text that ends in a slash. -/
def IsFront (before : List Char) : Prop := before = [] ∨ ∃ front, before = front ++ ['/']

/-- What stands before the part behind the last slash of a text. -/
theorem exists_isFront (s : List Char) : ∃ before, IsFront before ∧ s = before ++ afterLastSlash s := by
  refine ⟨(s.reverse.dropWhile (· != '/')).reverse, ?_, ?_⟩
  · have hhead := List.head?_dropWhile_not (· != '/') s.reverse
    cases hrest : s.reverse.dropWhile (· != '/') with
    | nil => exact .inl rfl
    | cons c r =>
      rw [hrest] at hhead
      obtain rfl : c = '/' := by simpa using hhead
      exact .inr ⟨r.reverse, List.reverse_cons⟩
  · rw [afterLastSlash, ← List.reverse_append, List.takeWhile_append_dropWhile, List.reverse_reverse]

/-- The last part of a path is what stands behind the last slash. -/
theorem splitOn_append (hbefore : IsFront before) (hne : s ≠ []) (hslash : '/' ∉ s) :
    ((before ++ s).splitOn '/').filter (· ≠ []) = (before.splitOn '/').filter (· ≠ []) ++ [s] := by
  have hlast : [s].filter (· ≠ []) = [s] := by simp [hne]
  obtain rfl | ⟨front, rfl⟩ := hbefore
  · rw [List.nil_append, List.splitOn_eq_singleton hslash, hlast]
    rfl
  · rw [List.append_assoc, List.cons_append, List.nil_append, List.splitOn_append_cons_self, List.splitOn_append_cons_self,
      List.splitOn_eq_singleton hslash, List.filter_append, List.filter_append, hlast]
    simp

/-- The last step of a path is what stands behind the last slash. -/
theorem getLast?_steps (hchars : p.chars = before ++ s) (hbefore : IsFront before) (hne : s ≠ []) (hslash : '/' ∉ s) :
    p.steps.getLast? = some (String.ofList s) := by
  have hlast : p.chars.getLast? ≠ some '/' := by
    rw [hchars, List.getLast?_append_of_ne_nil _ hne]
    exact fun h => hslash (List.mem_of_getLast? h)
  rw [steps, Text.pieces_eq_splitOn, hchars, splitOn_append hbefore hne hslash, ← hchars, if_neg hlast]
  simp

/-- A path that ends in a slash stays where it is at last. -/
theorem getLast?_steps_slash {front : List Char} (hchars : p.chars = front ++ ['/']) : p.steps.getLast? = some "." := by
  rw [steps, if_pos (by rw [hchars, List.getLast?_concat]), List.getLast?_concat]

/-- A path ends in a file name, before which there is nothing or a text that ends in a slash. -/
structure EndsIn (p : Path) (before : List Char) (name : String) : Prop where
  chars_eq : p.chars = before ++ name.toList
  isFront : IsFront before
  isFileName : IsFileName name

theorem IsFileName.toList_ne_nil (h : IsFileName name) : name.toList ≠ [] := fun hnil =>
  h.not_empty (String.toList_inj.1 hnil)

namespace EndsIn

/-- The last name of such a path is the file name. -/
theorem names_eq (h : p.EndsIn before name) : names p.chars = names before ++ [name] := by
  rw [names, h.chars_eq, splitOn_append h.isFront h.isFileName.toList_ne_nil h.isFileName.no_slash, List.map_append,
    List.filter_append, names]
  simp [h.isFileName.not_point]

/-- Such a path takes the file name as its last step. -/
theorem getLast?_steps (h : p.EndsIn before name) : p.steps.getLast? = some name := by
  rw [Path.getLast?_steps h.chars_eq h.isFront h.isFileName.toList_ne_nil h.isFileName.no_slash, String.ofList_toList]

/-- The steps before the last one have the names before the file name. -/
theorem names_dropLast (h : p.EndsIn before name) : p.steps.dropLast.filter (· ≠ ".") = names before := by
  have hall : p.steps.dropLast.filter (· ≠ ".") ++ [name] = names before ++ [name] := by
    rw [← h.names_eq, ← names_steps]
    conv => rhs; rw [← List.dropLast_append_getLast? name h.getLast?_steps, List.filter_append]
    simp [h.isFileName.not_point]
  exact List.append_cancel_right hall

/-- Such a path starts at the root if what stands before the file name does. -/
theorem isAbsolute_iff (h : p.EndsIn before name) : p.isAbsolute = true ↔ before.head? = some '/' := by
  rw [isAbsolute, decide_eq_true_iff, h.chars_eq]
  cases before with
  | nil =>
    rw [List.nil_append]
    constructor
    · intro hhead
      exact absurd (List.mem_of_head? hhead) h.isFileName.no_slash
    · intro hhead
      cases hhead
  | cons c r => rfl

end EndsIn

/-- A path to which a file name is joined ends in it. -/
theorem endsIn_join (h : IsFileName name) (p : Path) :
    ∃ before, (p.join ⟨name⟩).EndsIn before name ∧ names before = names p.chars ∧ before.head? = p.chars.head? := by
  have hrelative : (⟨name⟩ : Path).isAbsolute = false := by
    rw [isAbsolute, decide_eq_false_iff_not]
    exact fun hhead => h.no_slash (List.mem_of_head? hhead)
  have hempty : p.text = "" ↔ p.chars = [] := String.toList_inj.symm
  by_cases hend : p.text = "" ∨ p.chars.getLast? = some '/'
  · refine ⟨p.chars, ⟨?_, ?_, h⟩, rfl, rfl⟩
    · rw [join, hrelative, if_neg Bool.false_ne_true, if_pos hend]
      exact String.toList_append
    · rwa [hempty, List.getLast?_eq_some_iff] at hend
  · refine ⟨p.chars ++ ['/'], ⟨?_, .inr ⟨p.chars, rfl⟩, h⟩, names_concat p.chars, ?_⟩
    · rw [join, hrelative, if_neg Bool.false_ne_true, if_neg hend]
      show (p.text ++ "/" ++ name).toList = _
      rw [String.toList_append, String.toList_append]
      rfl
    · rw [hempty] at hend
      obtain ⟨c, r, hp⟩ := List.exists_cons_of_ne_nil fun hnil => hend (.inl hnil)
      rw [hp]
      rfl

/-- A path to which a file name is joined starts where it does without. -/
theorem isAbsolute_join (h : IsFileName name) (p : Path) : (p.join ⟨name⟩).isAbsolute = p.isAbsolute := by
  obtain ⟨before, hends, -, hhead⟩ := endsIn_join h p
  rw [Bool.eq_iff_iff, hends.isAbsolute_iff, hhead, isAbsolute, decide_eq_true_iff]

/-! ## The parent of a path -/

/-- What is skipped at the end of a path has no names. -/
theorem names_dropTrailing (s : List Char) : names (dropTrailing s).reverse = names s.reverse := by
  fun_induction dropTrailing s with
  | case1 r ih => rw [ih, List.reverse_cons, names_concat]
  | case2 r ih =>
    rw [ih, List.reverse_cons, List.reverse_cons, List.append_assoc, List.cons_append, List.nil_append, names_concat_point]
  | case3 => rfl

/-- What is skipped at the end of a path is not its beginning, unless that is a slash. -/
theorem getLast?_dropTrailing (h : s.getLast? ≠ some '/') : (dropTrailing s).getLast? = s.getLast? := by
  fun_induction dropTrailing s with
  | case1 r ih =>
    cases r with
    | nil => exact absurd rfl h
    | cons c r => exact ih h
  | case2 r ih =>
    cases r with
    | nil => exact absurd rfl h
    | cons c r => exact ih h
  | case3 => rfl

namespace EndsIn

/-- Nothing is skipped at the end of a path that ends in a file name. -/
theorem trimmed_eq (h : p.EndsIn before name) : p.trimmed = p.chars := by
  have hslash : '/' ∉ name.toList.reverse := mt List.mem_reverse.1 h.isFileName.no_slash
  have hkept : dropTrailing p.chars.reverse = p.chars.reverse := by
    rw [h.chars_eq, List.reverse_append]
    cases hname : name.toList.reverse with
    | nil => exact absurd (List.reverse_eq_nil_iff.1 hname) h.isFileName.toList_ne_nil
    | cons c r =>
      rw [hname, List.mem_cons, not_or] at hslash
      refine dropTrailing_eq_self ?_ ?_
      · rintro ⟨rest, heq⟩
        exact hslash.1 (List.cons.inj heq).1
      · rintro ⟨rest, heq⟩
        obtain ⟨rfl, hrest⟩ := List.cons.inj heq
        cases r with
        | nil =>
          have hpoint : name.toList = ['.'] := by rw [← List.reverse_reverse name.toList, hname]; rfl
          exact h.isFileName.not_point (String.toList_inj.1 hpoint)
        | cons d r =>
          rw [List.mem_cons, not_or] at hslash
          exact hslash.2.1 (List.cons.inj hrest).1
  rw [trimmed, hkept, List.reverse_reverse]

/-- The parent of a relative path that ends in a file name is what stands before that, less what is skipped at its end. -/
theorem parent?_eq (h : p.EndsIn before name) (hrelative : before.head? ≠ some '/') :
    p.parent? = some (ofChars (dropTrailing before.reverse).reverse) := by
  have hne : p.trimmed ≠ [] := by
    rw [h.trimmed_eq, h.chars_eq]
    exact List.append_ne_nil_of_right_ne_nil before h.isFileName.toList_ne_nil
  have hname := ne_slash_of_not_mem h.isFileName.no_slash
  have hbefore : p.trimmed.reverse.dropWhile (· != '/') = before.reverse := by
    rw [h.trimmed_eq, h.chars_eq, List.reverse_append, List.dropWhile_append_of_pos hname]
    obtain rfl | ⟨front, rfl⟩ := h.isFront
    · rfl
    · rw [List.reverse_append]
      rfl
  rw [parent?]
  split
  next hnil => exact absurd hnil hne
  next =>
    rw [hbefore]
    cases hb : before.reverse with
    | nil => rfl
    | cons c r =>
      have hlast : (c :: r).getLast? ≠ some '/' := by rwa [← hb, List.getLast?_reverse]
      have hkept := getLast?_dropTrailing hlast
      split
      next hnil => cases hnil
      next =>
        split
        next hnil =>
          rw [hnil, List.getLast?_cons] at hkept
          cases hkept
        next => rfl

end EndsIn

end LibraryGuard.Path
