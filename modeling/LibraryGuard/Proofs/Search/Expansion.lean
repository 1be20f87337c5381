import LibraryGuard.Proofs.Text.Blank
import LibraryGuard.Proofs.Text.Replacement
import LibraryGuard.Search.SearchList

/-!
# What stands for the executable's directory

In a directory of a search list, the variable for the executable's directory has two spellings. They are replaced one after the
other, so that the second replacement also goes through what the first one has put in. It comes to the same as one pass over the
directory (`expandOnce`) exactly if the first replacement makes no new occurrence of the other spelling, or if the executable's
directory is that spelling itself (`candidates_eq_expanded_entries`). An executable's directory that has the variable in its
name is such a case (`candidates_ne_expandOnce`).
-/

namespace LibraryGuard.SearchList

theorem isMarked_bracedVariable : Text.IsMarked '$' bracedVariable := ⟨_, rfl, by decide⟩

theorem isMarked_plainVariable : Text.IsMarked '$' plainVariable := ⟨_, rfl, by decide⟩

/-- A directory with both spellings replaced in one pass from left to right, which does not look at what it has put in. -/
def expandOnce (origin : Path) : List Char → List Char
  | [] => []
  | c :: r =>
    match _ : Text.after? bracedVariable (c :: r) with
    | some rest => origin.chars ++ expandOnce origin rest
    | none =>
      match _ : Text.after? plainVariable (c :: r) with
      | some rest => origin.chars ++ expandOnce origin rest
      | none => c :: expandOnce origin r
termination_by entry => entry.length
decreasing_by
  · exact Text.length_lt_of_after? isMarked_bracedVariable.ne_nil ‹_›
  · exact Text.length_lt_of_after? isMarked_plainVariable.ne_nil ‹_›
  · exact Nat.lt_succ_self _

/-- Neither spelling begins the other. -/
theorem not_plain_prefix_braced (rest : List Char) : ¬plainVariable <+: bracedVariable ++ rest := by
  rintro ⟨t, ht⟩
  exact absurd (List.cons.inj (List.cons.inj ht).2).1 (by decide)

@[inherit_doc not_plain_prefix_braced]
theorem not_braced_prefix_plain (rest : List Char) : ¬bracedVariable <+: plainVariable ++ rest := by
  rintro ⟨t, ht⟩
  exact absurd (List.cons.inj (List.cons.inj ht).2).1 (by decide)

/-- One pass replaces those occurrences of the plain spelling that were in the directory, and so is a way of replacing some of
those that are there when the braced one has been replaced. -/
theorem replaces_expandOnce (origin : Path) (entry : List Char) :
    Text.Replaces plainVariable origin.chars (Text.replace bracedVariable origin.chars entry) (expandOnce origin entry)
      (Text.occurrences plainVariable entry) := by
  fun_induction expandOnce origin entry with
  | case1 =>
    rw [Text.replace_nil, Text.occurrences_nil isMarked_plainVariable.ne_nil]
    exact .nil
  | case2 c r rest h ih =>
    rw [Text.after?_eq_some_iff.1 h, Text.replace_append_self isMarked_bracedVariable.ne_nil,
      isMarked_plainVariable.occurrences_append_other isMarked_bracedVariable (not_plain_prefix_braced rest)]
    exact ih.append_left origin.chars
  | case3 c r hb rest h ih =>
    rw [Text.after?_eq_some_iff.1 h, isMarked_plainVariable.occurrences_append_self,
      isMarked_bracedVariable.replace_append_other isMarked_plainVariable (not_braced_prefix_plain rest)]
    exact ih.put
  | case4 c r hb h ih =>
    rw [Text.after?_eq_none_iff] at hb h
    rw [Text.replace_cons hb, Text.occurrences_cons_of_neg h]
    exact ih.keep c

/-- The two replacements come to the same as one pass exactly if the first one makes no new occurrence of the plain spelling, or
if that is replaced by itself. -/
theorem expand_eq_expandOnce_iff (origin : Path) (entry : List Char) :
    expand origin entry = expandOnce origin entry ↔
      origin.chars = plainVariable ∨
        Text.occurrences plainVariable (Text.replace bracedVariable origin.chars entry) =
          Text.occurrences plainVariable entry := by
  have honce := replaces_expandOnce origin entry
  have htwice := Text.replaces_replace isMarked_plainVariable origin.chars (Text.replace bracedVariable origin.chars entry)
  constructor
  · intro heq
    refine or_iff_not_imp_left.2 fun hself => ?_
    rw [← heq] at honce
    exact htwice.count_unique isMarked_plainVariable (Ne.symm hself) honce
  · rintro (hself | hcount)
    · rw [hself] at htwice honce
      rw [expand, hself, ← htwice.eq_of_self, ← honce.eq_of_self]
    · exact (honce.eq_replace isMarked_plainVariable hcount.symm).symm

/-- The candidates of a list are, in order, those of the directories between its colons that are not empty: the library in the
directory in which the variable is replaced. That is the directory with the variable replaced in one pass exactly if replacing
the braced spelling makes no new occurrence of the plain one, or if the plain one is replaced by itself. -/
theorem candidates_eq_expanded_entries (list : String) (origin : Path) (target : String) :
    candidates list origin target =
        ((list.toList.splitOn ':').filter (· ≠ [])).map (fun entry => (Path.ofChars (expand origin entry)).join ⟨target⟩) ∧
      ∀ entry, expand origin entry = expandOnce origin entry ↔
        origin.chars = plainVariable ∨
          Text.occurrences plainVariable (Text.replace bracedVariable origin.chars entry) =
            Text.occurrences plainVariable entry := by
  refine ⟨?_, expand_eq_expandOnce_iff origin⟩
  rw [candidates, entries, Text.pieces_eq_splitOn]

/-- The candidates of a list need not be those of its directories with the variable replaced in one pass. -/
theorem candidates_ne_expandOnce :
    ¬ ∀ (list : String) (origin : Path) (target : String), candidates list origin target =
        ((list.toList.splitOn ':').filter (· ≠ [])).map fun entry =>
          (Path.ofChars (expandOnce origin entry)).join ⟨target⟩ := by
  intro hclaim
  have h := hclaim "$\x7bORIGIN\x7d" ⟨"/opt/$ORIGIN"⟩ "libstdc++.so.6"
  exact absurd h (by decide +kernel)

end LibraryGuard.SearchList
