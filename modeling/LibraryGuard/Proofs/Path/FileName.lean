import LibraryGuard.Path
import Mathlib.Data.List.TakeWhile

/-!
# Which texts are file names

A file name is a text that can stand as the last component of a path: it is not empty, has no slash, and is neither `.` nor
`..`. Only file names name a path (`isFileName_of_isNamed`), and a text that is taken as a path is named by itself exactly if it
is one (`isNamed_self_iff`).
-/

namespace LibraryGuard.Path

/-- A text that can be the last component of a path. -/
structure IsFileName (name : String) : Prop where
  not_empty : name ≠ ""
  not_point : name ≠ "."
  not_parent : name ≠ ".."
  no_slash : '/' ∉ name.toList

/-- What follows the last slash has none. -/
theorem slash_not_mem_afterLastSlash (s : List Char) : '/' ∉ afterLastSlash s := by
  intro h
  rw [afterLastSlash, List.mem_reverse] at h
  simpa using List.mem_takeWhile_imp h

/-- Reading a text without a slash backwards, no slash is met. -/
theorem ne_slash_of_not_mem {s : List Char} (h : '/' ∉ s) : ∀ c ∈ s.reverse, (c != '/') = true := by
  intro c hc
  rw [bne_iff_ne]
  rintro rfl
  exact h (List.mem_reverse.1 hc)

/-- A text without a slash follows its last slash as a whole. -/
theorem afterLastSlash_of_not_mem {s : List Char} (h : '/' ∉ s) : afterLastSlash s = s := by
  rw [afterLastSlash, List.takeWhile_eq_self_iff.2 (ne_slash_of_not_mem h), List.reverse_reverse]

/-- Nothing is skipped at the end of a text, read backwards, that does not end in a slash or a `.` component. -/
theorem dropTrailing_eq_self {s : List Char} (hslash : ¬ ['/'] <+: s) (hpoint : ¬ ['.', '/'] <+: s) : dropTrailing s = s := by
  unfold dropTrailing
  split
  next r => exact absurd ⟨r, rfl⟩ hslash
  next r => exact absurd ⟨r, rfl⟩ hpoint
  next => rfl

/-- A path without a slash loses nothing at its end. -/
theorem trimmed_of_not_mem {p : Path} (h : '/' ∉ p.chars) : p.trimmed = p.chars := by
  have hnone : '/' ∉ p.chars.reverse := mt List.mem_reverse.1 h
  rw [trimmed, dropTrailing_eq_self, List.reverse_reverse]
  · exact fun hfront => hnone (hfront.subset (by decide))
  · exact fun hfront => hnone (hfront.subset (by decide))

/-- The last component of a path is its file name exactly if it is one. -/
theorem fileName?_eq_some_iff {p : Path} {name : String} :
    p.fileName? = some name ↔ afterLastSlash p.trimmed = name.toList ∧ IsFileName name := by
  have hslash := slash_not_mem_afterLastSlash p.trimmed
  rw [fileName?]
  constructor
  · intro h
    split at h
    · nomatch h
    · rename_i hlast
      obtain rfl := Option.some.inj h
      simp only [not_or] at hlast
      rw [String.toList_ofList]
      refine ⟨rfl, ?_, ?_, ?_, by rwa [String.toList_ofList]⟩
      all_goals
        rw [ne_eq, ← String.toList_inj, String.toList_ofList]
      · exact hlast.1
      · exact hlast.2.1
      · exact hlast.2.2
  · rintro ⟨hlast, hname⟩
    have hproper : ¬(name.toList = [] ∨ name.toList = ['.'] ∨ name.toList = ['.', '.']) := by
      rintro (h | h | h)
      · exact hname.not_empty (String.toList_inj.1 h)
      · exact hname.not_point (String.toList_inj.1 h)
      · exact hname.not_parent (String.toList_inj.1 h)
    simp only [hlast, if_neg hproper, String.ofList_toList]

/-- What is skipped at the end of a path leaves its front. -/
theorem dropTrailing_suffix (s : List Char) : dropTrailing s <:+ s := by
  fun_induction dropTrailing s with
  | case1 r ih => exact ih.trans (List.suffix_cons '/' r)
  | case2 r ih => exact ih.trans ((List.suffix_cons '/' r).trans (List.suffix_cons '.' ('/' :: r)))
  | case3 => exact List.suffix_rfl

/-- The file name of a path is a piece of it. -/
theorem fileName?_infix {p : Path} {name : String} (h : p.fileName? = some name) : name.toList <:+: p.chars := by
  rw [← (fileName?_eq_some_iff.1 h).1, afterLastSlash]
  have hlast : (p.trimmed.reverse.takeWhile (· != '/')).reverse <:+ p.trimmed := by
    rw [← List.reverse_prefix, List.reverse_reverse]
    exact List.takeWhile_prefix _
  have hfront : p.trimmed <+: p.chars := by
    rw [← List.reverse_suffix, trimmed, List.reverse_reverse]
    exact dropTrailing_suffix _
  exact hlast.isInfix.trans hfront.isInfix

/-- A path is named by nothing but file names. -/
theorem isFileName_of_isNamed {p : Path} {name : String} (h : p.isNamed name = true) : IsFileName name :=
  (fileName?_eq_some_iff.1 (of_decide_eq_true h)).2

/-- A text, taken as a path, is named by itself exactly if it is a file name. -/
theorem isNamed_self_iff (name : String) : (Path.mk name).isNamed name = true ↔ IsFileName name := by
  refine ⟨isFileName_of_isNamed, fun h => decide_eq_true (fileName?_eq_some_iff.2 ⟨?_, h⟩)⟩
  rw [trimmed_of_not_mem h.no_slash]
  exact afterLastSlash_of_not_mem h.no_slash

end LibraryGuard.Path
