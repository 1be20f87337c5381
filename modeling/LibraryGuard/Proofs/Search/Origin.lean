import LibraryGuard.Proofs.FileTree
import LibraryGuard.Proofs.Search.Expansion

/-!
# Directories beside an executable

A directory of a search list that begins with the variable is meant to be seen from the directory that the executable is in
(`LeadsBeside`). For a relative executable it is, unless the executable is a bare name and something follows the variable: then
the candidate starts at the root. The directory is also lost where the variable is written in braces and the executable's
directory has the variable in its own name (`originCandidate_beside_or_at_root`, `bareName_not_leadsBeside`).
-/

namespace LibraryGuard

open SearchList

/-! ## The directory of an executable -/

namespace Path

variable {executable : Path} {before : List Char} {name : String}

/-- Nothing before the file name of a relative executable begins with a slash. -/
theorem EndsIn.head?_ne (h : executable.EndsIn before name) (hrelative : executable.isAbsolute = false) :
    before.head? ≠ some '/' := by
  rw [ne_eq, ← h.isAbsolute_iff, hrelative]
  exact Bool.false_ne_true

/-- The directory of a relative executable is what stands before its file name, less what is skipped at its end. -/
theorem EndsIn.origin_chars (h : executable.EndsIn before name) (hrelative : executable.isAbsolute = false) :
    executable.origin.chars = (dropTrailing before.reverse).reverse := by
  rw [origin, h.parent?_eq (h.head?_ne hrelative), Option.getD_some, chars_ofChars]

/-- It has the names before the file name. -/
theorem EndsIn.names_origin (h : executable.EndsIn before name) (hrelative : executable.isAbsolute = false) :
    names executable.origin.chars = names before := by
  rw [h.origin_chars hrelative, names_dropTrailing, List.reverse_reverse]

/-- It begins as the executable's path does. -/
theorem EndsIn.head?_origin (h : executable.EndsIn before name) (hrelative : executable.isAbsolute = false) :
    executable.origin.chars.head? = before.head? := by
  have hlast : before.reverse.getLast? ≠ some '/' := by
    rw [List.getLast?_reverse]
    exact h.head?_ne hrelative
  rw [h.origin_chars hrelative, List.head?_reverse, getLast?_dropTrailing hlast, List.getLast?_reverse]

/-- A path that ends in a file name is a bare name if nothing stands before that. -/
theorem EndsIn.eq_nil_iff (h : executable.EndsIn before name) : before = [] ↔ '/' ∉ executable.chars := by
  rw [h.chars_eq, List.mem_append]
  obtain rfl | ⟨front, rfl⟩ := h.isFront
  · simp [h.isFileName.no_slash]
  · simp

end Path

namespace SearchList

/-! ## Directories that begin with the variable -/

/-- A spelling of the variable, behind which there is nothing or a slash and a text without the variable. -/
structure IsBeside (spelling rest : List Char) : Prop where
  isSpelling : spelling = bracedVariable ∨ spelling = plainVariable
  isBehind : rest = [] ∨ ∃ r, rest = '/' :: r
  no_plain : ¬plainVariable <:+: rest
  no_braced : ¬bracedVariable <:+: rest

/-- What stands for the executable's directory where the variable is written in the given spelling. -/
def inserted (origin : Path) (spelling : List Char) : List Char :=
  if spelling = plainVariable then origin.chars else Text.replace plainVariable origin.chars origin.chars

variable {origin : Path} {spelling rest : List Char}

/-- Such a directory is what is put in, and what is behind the variable. -/
theorem IsBeside.expand_eq (h : IsBeside spelling rest) (origin : Path) :
    expand origin (spelling ++ rest) = inserted origin spelling ++ rest := by
  have hplain := Text.replace_of_not_infix h.no_plain origin.chars
  have hbraced := Text.replace_of_not_infix h.no_braced origin.chars
  obtain rfl | rfl := h.isSpelling
  · have hslash : '/' ∉ plainVariable := by decide
    rw [expand, Text.replace_append_self isMarked_bracedVariable.ne_nil, hbraced, inserted, if_neg (by decide)]
    obtain rfl | ⟨r, rfl⟩ := h.isBehind
    · rw [List.append_nil, List.append_nil]
    · have hr : ¬plainVariable <:+: r := fun hr => h.no_plain (List.infix_cons hr)
      rw [Text.replace_append_cons isMarked_plainVariable.ne_nil hslash, Text.replace_of_not_infix hr]
  · rw [expand, isMarked_bracedVariable.replace_append_other isMarked_plainVariable (not_braced_prefix_plain rest), hbraced,
      Text.replace_append_self isMarked_plainVariable.ne_nil, hplain, inserted, if_pos rfl]

/-- What is put in begins as the executable's directory does. -/
theorem head?_inserted (origin : Path) (spelling : List Char) : (inserted origin spelling).head? = origin.chars.head? := by
  rw [inserted]
  split
  · rfl
  · cases hchars : origin.chars with
    | nil => rw [Text.replace_nil]
    | cons c r =>
      by_cases hp : plainVariable <+: c :: r
      · obtain ⟨s, hs⟩ := hp
        conv => lhs; rw [← hs]
        rw [Text.replace_append_self isMarked_plainVariable.ne_nil, hs]
        rfl
      · rw [Text.replace_cons hp]
        rfl

/-- The executable's directory is put in as it is where the spelling is plain, or where the directory has no variable in its
name or is one. -/
theorem inserted_eq (h : spelling = plainVariable ∨ origin.chars = plainVariable ∨ ¬plainVariable <:+: origin.chars) :
    inserted origin spelling = origin.chars := by
  rw [inserted]
  split
  · rfl
  next hspelling =>
    obtain hplain | hself | hno := h
    · exact absurd hplain hspelling
    · have hreplaced := Text.replace_append_self isMarked_plainVariable.ne_nil plainVariable []
      rw [List.append_nil, Text.replace_nil, List.append_nil] at hreplaced
      rw [hself, hreplaced]
    · exact Text.replace_of_not_infix hno origin.chars

/-- What is behind the variable adds its names. -/
theorem IsBeside.names_append (h : IsBeside spelling rest) (s : List Char) :
    Path.names (s ++ rest) = Path.names s ++ Path.names rest := by
  obtain rfl | ⟨r, rfl⟩ := h.isBehind
  · rw [List.append_nil]
    exact (List.append_nil _).symm
  · rw [Path.names_append, Path.names_cons]

variable {executable : Path} {before : List Char} {name : String}

/-- Nothing is put in for a bare name. -/
theorem inserted_eq_nil (hends : executable.EndsIn [] name) (hrelative : executable.isAbsolute = false) :
    inserted executable.origin spelling = [] := by
  rw [← List.head?_eq_none_iff, head?_inserted, hends.head?_origin hrelative, List.head?_nil]

/-- With the variable replaced, the directory starts at the root exactly if nothing is put in and there is something behind the
variable: what is put in does not begin with a slash. -/
theorem IsBeside.head?_eq_slash_iff (h : IsBeside spelling rest) (hends : executable.EndsIn before name)
    (hrelative : executable.isAbsolute = false) :
    (inserted executable.origin spelling ++ rest).head? = some '/' ↔ before = [] ∧ rest ≠ [] := by
  cases before with
  | nil =>
    rw [inserted_eq_nil hends hrelative, List.nil_append]
    obtain rfl | ⟨r, rfl⟩ := h.isBehind <;> simp
  | cons c r =>
    have hhead : (inserted executable.origin spelling).head? = some c :=
      (head?_inserted ..).trans (hends.head?_origin hrelative)
    have hc : some c ≠ some '/' := hends.head?_ne hrelative
    rw [List.head?_append, hhead]
    simpa using hc

end SearchList

/-! ## Where the candidates lead -/

/-- A candidate leads to the library beside an executable: it is relative, and it leads to where the steps of the executable lead
when the last one is replaced by those of the rest and the library. -/
def LeadsBeside (t : FileTree) (executable candidate : Path) (rest : List Char) (target : String) : Prop :=
  candidate.isAbsolute = false ∧
    ∀ links, t.follow links t.here candidate.steps =
      t.follow links t.here (executable.steps.dropLast ++ (Path.ofChars rest).steps ++ [target])

/-- The candidate of a directory that begins with the variable, for a relative executable that can be read. It starts at the root
exactly if the executable is a bare name and something is behind the variable, and then it leads to the rest from there.
Otherwise it leads beside the executable, if the executable's directory is put in as it is. -/
theorem originCandidate_beside_or_at_root {t : FileTree} (htree : t.IsRooted) {executable : Path} {image : Bytes}
    (hrelative : executable.isAbsolute = false) (hread : t.read executable = .ok image) {target : String}
    (htarget : Path.IsFileName target) {list : String} {i : Nat} {spelling rest : List Char} (hbeside : IsBeside spelling rest)
    (hentry : (entries list)[i]? = some (spelling ++ rest)) :
    ∃ candidate, (candidates list executable.origin target)[i]? = some candidate ∧
      (candidate.isAbsolute = true ↔ '/' ∉ executable.chars ∧ rest ≠ []) ∧
      (candidate.isAbsolute = true →
        ∀ links, t.follow links [] candidate.steps = t.follow links [] ((Path.ofChars rest).steps ++ [target])) ∧
      (candidate.isAbsolute = false →
        spelling = plainVariable ∨ executable.origin.chars = plainVariable ∨ ¬plainVariable <:+: executable.origin.chars →
          LeadsBeside t executable candidate rest target) := by
  obtain ⟨before, name, hends⟩ := FileTree.endsIn_of_read htree hread
  let directory := inserted executable.origin spelling ++ rest
  have habsolute : ((Path.ofChars directory).join ⟨target⟩).isAbsolute = true ↔ before = [] ∧ rest ≠ [] := by
    rw [Path.isAbsolute_join htarget, Path.isAbsolute, Path.chars_ofChars, decide_eq_true_iff,
      hbeside.head?_eq_slash_iff hends hrelative]
  refine ⟨(Path.ofChars directory).join ⟨target⟩, ?_, ?_, ?_, ?_⟩
  · rw [candidates, List.getElem?_map, hentry, Option.map_some, hbeside.expand_eq]
  · rw [habsolute, hends.eq_nil_iff]
  · intro hroot links
    obtain ⟨rfl, -⟩ := habsolute.1 hroot
    have hdirectory : directory = rest := congrArg (· ++ rest) (inserted_eq_nil hends hrelative)
    rw [FileTree.follow_join htarget, hdirectory]
  · intro hleads hspelling
    refine ⟨hleads, fun links => ?_⟩
    have hnames : Path.names directory = Path.names before ++ Path.names rest := by
      rw [hbeside.names_append, inserted_eq hspelling, hends.names_origin hrelative]
    rw [FileTree.follow_join htarget, FileTree.follow_steps, Path.chars_ofChars, hnames,
      t.follow_filter links _ (executable.steps.dropLast ++ _) (List.cons_ne_nil target []), List.filter_append,
      hends.names_dropLast, Path.names_steps, Path.chars_ofChars]

/-- A library next to a program's directory is found from a braced variable with more behind it. -/
theorem originCandidate_siblingDirectory :
    let t : FileTree := { nodes := [(["bin"], .directory), (["bin", "app"], .file #[] true)] }
    let list := "/opt:$\x7bORIGIN\x7d/../lib"
    t.IsRooted ∧ (⟨"bin/app"⟩ : Path).isAbsolute = false ∧ t.read ⟨"bin/app"⟩ = .ok #[] ∧ Path.IsFileName "libstdc++.so.6" ∧
      IsBeside bracedVariable "/../lib".toList ∧ (entries list)[1]? = some (bracedVariable ++ "/../lib".toList) ∧
      ∃ candidate, (candidates list (⟨"bin/app"⟩ : Path).origin "libstdc++.so.6")[1]? = some candidate ∧
        LeadsBeside t ⟨"bin/app"⟩ candidate "/../lib".toList "libstdc++.so.6" := by
  intro t list
  have htree : t.IsRooted := FileTree.isRooted_of_forall_mem (by decide)
  have hrelative : (⟨"bin/app"⟩ : Path).isAbsolute = false := by decide
  have hread : t.read ⟨"bin/app"⟩ = .ok #[] := by
    have hplace : t.place ⟨"bin/app"⟩ = .ok ["bin", "app"] := by
      show t.follow FileTree.linkLimit [] ["bin", "app"] = _
      rw [FileTree.follow_cons]
      show t.follow _ ["bin"] ["app"] = _
      rw [FileTree.follow_cons]
      show t.follow _ ["bin", "app"] [] = _
      rw [FileTree.follow]
    rw [FileTree.read, FileTree.find, hplace]
    rfl
  have htarget : Path.IsFileName "libstdc++.so.6" := by constructor <;> decide
  have hbeside : IsBeside bracedVariable "/../lib".toList := ⟨.inl rfl, .inr ⟨_, rfl⟩, by decide, by decide⟩
  have hentry : (entries list)[1]? = some (bracedVariable ++ "/../lib".toList) := by decide +kernel
  refine ⟨htree, hrelative, hread, htarget, hbeside, hentry, ?_⟩
  obtain ⟨candidate, hcandidate, habsolute, -, hleads⟩ :=
    originCandidate_beside_or_at_root htree hrelative hread htarget hbeside hentry
  refine ⟨candidate, hcandidate, hleads ?_ (.inr (.inr (by decide)))⟩
  rw [← Bool.not_eq_true, habsolute]
  decide

/-- Not every candidate leads beside the executable: the directory of a bare name is lost if something is behind the variable. -/
theorem bareName_not_leadsBeside :
    ¬ ∀ (t : FileTree) (executable : Path) (image : Bytes) (target list : String) (i : Nat) (spelling rest : List Char),
        t.IsRooted → executable.isAbsolute = false → t.read executable = .ok image → Path.IsFileName target →
          IsBeside spelling rest → (entries list)[i]? = some (spelling ++ rest) →
            ∃ candidate, (candidates list executable.origin target)[i]? = some candidate ∧
              LeadsBeside t executable candidate rest target := by
  intro hclaim
  let t : FileTree := { nodes := [(["app"], .file #[] true)] }
  have htree : t.IsRooted := FileTree.isRooted_of_forall_mem (by decide)
  have hread : t.read ⟨"app"⟩ = .ok #[] := by
    have hplace : t.place ⟨"app"⟩ = .ok ["app"] := by
      show t.follow FileTree.linkLimit [] ["app"] = _
      rw [FileTree.follow_cons]
      show t.follow _ ["app"] [] = _
      rw [FileTree.follow]
    rw [FileTree.read, FileTree.find, hplace]
    rfl
  have htarget : Path.IsFileName "libstdc++.so.6" := by constructor <;> decide
  have hbeside : IsBeside plainVariable "/lib".toList := ⟨.inr rfl, .inr ⟨_, rfl⟩, by decide, by decide⟩
  obtain ⟨candidate, hcandidate, hrelative, -⟩ :=
    hclaim t ⟨"app"⟩ #[] "libstdc++.so.6" "$ORIGIN/lib" 0 plainVariable "/lib".toList htree (by decide) hread htarget hbeside
      (by decide +kernel)
  have habsolute : (candidates "$ORIGIN/lib" (⟨"app"⟩ : Path).origin "libstdc++.so.6")[0]? = some ⟨"/lib/libstdc++.so.6"⟩ := by
    decide +kernel
  obtain rfl := Option.some.inj (habsolute.symm.trans hcandidate)
  exact absurd hrelative (by decide)

end LibraryGuard
