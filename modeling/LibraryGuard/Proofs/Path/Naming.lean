import LibraryGuard.Proofs.Path.Steps

/-!
# By which name a path is known

The slashes and the `.` components at the end of a path say nothing. There is one way to take them all away (`isStripped_iff`),
and a path has a file name as its name exactly if what is left is that name, or ends in a slash with the name behind it
(`isNamed_iff_of_isStripped`). So a path that ends in a file name has it (`EndsIn.isNamed`), and in particular one to which the
name is joined (`isNamed_join`).
-/

namespace LibraryGuard.Path

variable {s t core before : List Char} {p : Path} {name : String}

/-- Slashes and `.` components, as they may stand at the end of a path. -/
inductive IsIdle : List Char → Prop where
  | nil : IsIdle []
  | slash {rest : List Char} (h : IsIdle rest) : IsIdle ('/' :: rest)
  | point {rest : List Char} (h : IsIdle rest) : IsIdle ('/' :: '.' :: rest)

/-- A text without the slashes and the `.` components at its end. -/
structure IsStripped (s core : List Char) : Prop where
  isRemoved : ∃ rest, IsIdle rest ∧ s = core ++ rest
  no_slash : ¬ ['/'] <:+ core
  no_point : ¬ ['/', '.'] <:+ core

/-! ## Taking away what says nothing -/

theorem IsIdle.append (hs : IsIdle s) (ht : IsIdle t) : IsIdle (s ++ t) := by
  induction hs with
  | nil => exact ht
  | slash _ ih => exact .slash ih
  | point _ ih => exact .point ih

/-- What says nothing is skipped, as it is read backwards, and then what is before it is looked at. -/
theorem IsIdle.dropTrailing_append (h : IsIdle s) (t : List Char) : dropTrailing (s.reverse ++ t) = dropTrailing t := by
  induction h generalizing t with
  | nil => rfl
  | slash _ ih =>
    rw [List.reverse_cons, List.append_assoc, ih]
    exact dropTrailing.eq_1 t
  | point _ ih =>
    rw [List.reverse_cons, List.reverse_cons, List.append_assoc, List.append_assoc, ih]
    exact dropTrailing.eq_2 t

/-- What is skipped at the end of a path says nothing. -/
theorem exists_isIdle (s : List Char) : ∃ rest, IsIdle rest ∧ s.reverse = (dropTrailing s).reverse ++ rest := by
  fun_induction dropTrailing s with
  | case1 r ih =>
    obtain ⟨rest, hidle, hrest⟩ := ih
    exact ⟨rest ++ ['/'], hidle.append (.slash .nil), by rw [List.reverse_cons, hrest, List.append_assoc]⟩
  | case2 r ih =>
    obtain ⟨rest, hidle, hrest⟩ := ih
    exact ⟨rest ++ ['/', '.'], hidle.append (.point .nil), by simp [hrest]⟩
  | case3 r => exact ⟨[], .nil, (List.append_nil _).symm⟩

/-- Nothing more can be skipped. -/
theorem not_prefix_dropTrailing (s : List Char) : ¬ ['/'] <+: dropTrailing s ∧ ¬ ['.', '/'] <+: dropTrailing s := by
  fun_induction dropTrailing s with
  | case1 r ih => exact ih
  | case2 r ih => exact ih
  | case3 r hslash hpoint =>
    constructor
    · rintro ⟨rest, rfl⟩
      exact hslash rest rfl
    · rintro ⟨rest, rfl⟩
      exact hpoint rest rfl

/-- There is one way to take away all slashes and `.` components at the end of a path. -/
theorem isStripped_iff : IsStripped p.chars core ↔ core = p.trimmed := by
  rw [trimmed]
  constructor
  · rintro ⟨⟨rest, hidle, hchars⟩, hslash, hpoint⟩
    rw [hchars, List.reverse_append, hidle.dropTrailing_append, dropTrailing_eq_self, List.reverse_reverse]
    · rwa [← List.reverse_suffix, List.reverse_reverse]
    · rwa [← List.reverse_suffix, List.reverse_reverse]
  · rintro rfl
    obtain ⟨rest, hidle, hrest⟩ := exists_isIdle p.chars.reverse
    rw [List.reverse_reverse] at hrest
    obtain ⟨hslash, hpoint⟩ := not_prefix_dropTrailing p.chars.reverse
    refine ⟨⟨rest, hidle, hrest⟩, ?_, ?_⟩
    · rwa [← List.reverse_prefix, List.reverse_reverse]
    · rwa [← List.reverse_prefix, List.reverse_reverse]

/-! ## Names -/

/-- What follows the last slash is told by what stands before it. -/
theorem afterLastSlash_eq_iff (hslash : '/' ∉ s) : afterLastSlash t = s ↔ t = s ∨ '/' :: s <:+ t := by
  constructor
  · rintro rfl
    obtain ⟨before, rfl | ⟨front, rfl⟩, ht⟩ := exists_isFront t
    · exact Or.inl ht
    · refine Or.inr ⟨front, ?_⟩
      rw [List.append_assoc] at ht
      exact ht.symm
  · rintro (rfl | ⟨front, rfl⟩)
    · exact afterLastSlash_of_not_mem hslash
    · rw [afterLastSlash, List.reverse_append, List.reverse_cons, List.append_assoc,
        List.takeWhile_append_of_pos (ne_slash_of_not_mem hslash)]
      exact (congrArg List.reverse (List.append_nil _)).trans (List.reverse_reverse s)

/-- A path has a file name as its name exactly if it is the name, or ends in a slash with the name behind it, once the slashes and
`.` components at its end are taken away. -/
theorem isNamed_iff_of_isStripped (hname : IsFileName name) (h : IsStripped p.chars core) :
    p.isNamed name = true ↔ core = name.toList ∨ '/' :: name.toList <:+ core := by
  rw [isStripped_iff] at h
  rw [isNamed, decide_eq_true_iff, fileName?_eq_some_iff, ← h, afterLastSlash_eq_iff hname.no_slash]
  exact and_iff_left hname

/-- A path that ends in a file name has it as its name. -/
theorem EndsIn.isNamed (h : p.EndsIn before name) : p.isNamed name = true := by
  rw [isNamed_iff_of_isStripped h.isFileName (isStripped_iff.2 rfl), h.trimmed_eq, h.chars_eq]
  obtain rfl | ⟨front, rfl⟩ := h.isFront
  · exact Or.inl (List.nil_append _)
  · exact Or.inr ⟨front, by simp⟩

/-- A path to which a file name is joined has it as its name. -/
theorem isNamed_join (h : IsFileName name) (p : Path) : (p.join ⟨name⟩).isNamed name = true := by
  obtain ⟨before, hends, -⟩ := endsIn_join h p
  exact hends.isNamed

end LibraryGuard.Path
