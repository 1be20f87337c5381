import LibraryGuard.Proofs.Elf.VersionImage
import LibraryGuard.Proofs.Search.Selection

/-!
# Redirections in a search over files that do not change

A candidate that the shipped library replaces need not be older than the shipped library: a newer copy that was accepted before
has raised the bar, and later candidates are held to that copy. `redirect_iff_older_than_accepted` says which candidates are
replaced, and `redirect_to_older` that the simpler statement, that only candidates older than the shipped library are, is false.
-/

namespace LibraryGuard

/-- A candidate of a search: its path, the part of the search that it comes from, and the name of the target. -/
structure Candidate where
  path : Path
  origin : SearchOrigin
  target : String

namespace Candidate

/-- The question about a candidate whose version is told by its file. -/
def inquiry (files : Files) (family : String) (c : Candidate) : Inquiry :=
  ⟨files, c.path, c.origin, c.target, ShippedLibrary.candidateVersion files family⟩

/-- The newest version of a family that a candidate's file defines, `0.0.0` for a file that cannot be read. -/
def version (files : Files) (family : String) (c : Candidate) : Version :=
  (ShippedLibrary.candidateVersion files family c.path).value

theorem inquiry_version (files : Files) (family : String) (c : Candidate) :
    (c.inquiry files family).version = c.version files family := rfl

end Candidate

namespace ShippedLibrary

variable (files : Files) (family : String) (s : ShippedLibrary)

/-- The verdict on a candidate. -/
def verdict (c : Candidate) : Verdict := (s.select files c.path c.origin c.target family).value.1

/-- The shipped library after some candidates, one after the other. -/
def selected (cs : List Candidate) : ShippedLibrary :=
  cs.foldl (fun s c => (s.select files c.path c.origin c.target family).value.2) s

theorem verdict_eq (c : Candidate) : s.verdict files family c = (s.judge (c.inquiry files family)).value.1 := rfl

/-- Selecting among candidates is judging the questions about them. -/
theorem selected_eq (cs : List Candidate) : s.selected files family cs = s.after (cs.map (·.inquiry files family)) := by
  rw [selected, after, List.foldl_map]
  rfl

/-- A version below the bar after some candidates is below the first bar, or below the version of a candidate that was accepted
and lies above the first bar itself. -/
theorem lt_selected_bar_iff (cs : List Candidate) (v : Version) :
    v < (s.selected files family cs).bar ↔ v < s.bar ∨
      ∃ before d rest, cs = before ++ d :: rest ∧ (d.inquiry files family).Reads ∧
        (s.selected files family before).verdict files family d = .accept ∧ s.bar < d.version files family ∧
        v < d.version files family := by
  constructor
  · intro hv
    by_cases hfirst : v < s.bar
    · exact Or.inl hfirst
    rw [selected_eq] at hv
    rcases s.after_bar_eq (cs.map (·.inquiry files family)) with hbar | ⟨before, q, rest, hsplit, hreads, haccept, hbar⟩
    · exact absurd (hbar ▸ hv) hfirst
    · obtain ⟨front, others, rfl, rfl, hothers⟩ := List.map_eq_append_iff.1 hsplit
      obtain ⟨d, back, rfl, rfl, rfl⟩ := List.map_eq_cons_iff.1 hothers
      rw [hbar, Candidate.inquiry_version] at hv
      refine Or.inr ⟨front, d, back, rfl, hreads, ?_, (not_lt.1 hfirst).trans_lt hv, hv⟩
      rw [verdict_eq, selected_eq]
      exact haccept
  · rintro (hfirst | ⟨before, d, rest, rfl, hreads, -, -, hd⟩)
    · rw [selected_eq]
      exact hfirst.trans_le ((s.after_bar_le_iff _ _).1 le_rfl).1
    · have hread : d.version files family ∈ Inquiry.versionsRead ((before ++ d :: rest).map (·.inquiry files family)) := by
        rw [← Candidate.inquiry_version]
        exact List.mem_map_of_mem (List.mem_filter.2 ⟨by simp, by simpa using hreads⟩)
      rw [selected_eq]
      exact hd.trans_le (((s.after_bar_le_iff _ _).1 le_rfl).2 _ hread)

/-- A library that was opened is at its path, and its bar is the newest version of its file. -/
theorem openAt_eq_ok_iff {files : Files} {family : String} {p : Path} {s : ShippedLibrary} :
    (openAt files p family).value = .ok s ↔ s.path = p ∧ (files.newestVersion p family).value = .ok s.bar := by
  simp only [openAt, Logged.value_bind, Logged.value_pure]
  cases hv : (files.newestVersion p family).value with
  | error e => exact iff_of_false nofun fun h => nomatch h.2
  | ok v =>
    constructor
    · intro h
      obtain rfl : mk p v = s := Except.ok.inj h
      exact ⟨rfl, rfl⟩
    · rintro ⟨rfl, hbar⟩
      obtain rfl : v = s.bar := Except.ok.inj hbar
      rfl

/-- The version of a candidate whose newest version can be told is that version. -/
theorem candidate_version_of_ok {c : Candidate} {v : Version} (h : (files.newestVersion c.path family).value = .ok v) :
    c.version files family = v := by
  simp [Candidate.version, candidateVersion, h]

/-- Over files that do not change, a shipped library that was opened is put in a candidate's place exactly when the candidate
is older than the shipped library, or older than a candidate that was accepted before and is newer than the shipped library.
-/
theorem redirect_iff_older_than_accepted {files : Files} {family : String} {p : Path} {s : ShippedLibrary}
    (hopen : (openAt files p family).value = .ok s) :
    (files.newestVersion p family).value = .ok s.bar ∧
      ∀ (cs : List Candidate) (c : Candidate) (path : Path),
        (s.selected files family cs).verdict files family c = .redirect path ↔
          path = p ∧ (c.inquiry files family).Reads ∧
            (c.version files family < s.bar ∨
              ∃ before d rest, cs = before ++ d :: rest ∧ (d.inquiry files family).Reads ∧
                (s.selected files family before).verdict files family d = .accept ∧
                s.bar < d.version files family ∧ c.version files family < d.version files family) := by
  obtain ⟨hp, hbar⟩ := openAt_eq_ok_iff.1 hopen
  refine ⟨hbar, fun cs c path => ?_⟩
  have hpath : (s.selected files family cs).path = p := by rw [selected_eq, after_eq, hp]
  rw [← lt_selected_bar_iff, ← hpath, verdict_eq, ← Candidate.inquiry_version]
  exact judge_redirect_iff (s.selected files family cs)

/-! ## A newer copy on the way -/

/-- A shipped library of version `3.4.26`, a copy of version `3.4.30`, and one of version `3.4.28`. -/
def threeCopies : Files where
  isFile path := path.text ∈ ["app/libstdc++.so.6", "new/libstdc++.so.6", "mid/libstdc++.so.6"]
  isPresent path := path.text ∈ ["app/libstdc++.so.6", "new/libstdc++.so.6", "mid/libstdc++.so.6"]
  read path :=
    if path.text = "app/libstdc++.so.6" then .ok (Elf.VersionImage.encode ["GLIBCXX_3.4.26"])
    else if path.text = "new/libstdc++.so.6" then .ok (Elf.VersionImage.encode ["GLIBCXX_3.4.30"])
    else if path.text = "mid/libstdc++.so.6" then .ok (Elf.VersionImage.encode ["GLIBCXX_3.4.28"])
    else .error .missing

/-- The copy of version `3.4.30`, and that of version `3.4.28`, as the linker's standard search finds them. -/
def newestCopy : Candidate := ⟨⟨"new/libstdc++.so.6"⟩, .builtIn, "libstdc++.so.6"⟩

@[inherit_doc newestCopy]
def middleCopy : Candidate := ⟨⟨"mid/libstdc++.so.6"⟩, .builtIn, "libstdc++.so.6"⟩

/-- The shipped library of version `3.4.26`. -/
def oldestCopy : ShippedLibrary := ⟨⟨"app/libstdc++.so.6"⟩, ⟨3, 4, 26⟩⟩

theorem oldestCopy_open : (openAt threeCopies ⟨"app/libstdc++.so.6"⟩ "GLIBCXX_").value = .ok oldestCopy :=
  openAt_eq_ok_iff.2 ⟨rfl, Files.newestVersion_of_encode rfl (by decide) (by decide) (by decide)⟩

theorem newestCopy_version : newestCopy.version threeCopies "GLIBCXX_" = ⟨3, 4, 30⟩ :=
  candidate_version_of_ok _ _ (Files.newestVersion_of_encode rfl (by decide) (by decide) (by decide))

theorem middleCopy_version : middleCopy.version threeCopies "GLIBCXX_" = ⟨3, 4, 28⟩ :=
  candidate_version_of_ok _ _ (Files.newestVersion_of_encode rfl (by decide) (by decide) (by decide))

theorem newestCopy_accepted : oldestCopy.verdict threeCopies "GLIBCXX_" newestCopy = .accept := by
  rw [verdict_eq, judge_accept_iff _ (by decide), Candidate.inquiry_version, newestCopy_version]
  decide

/-- The middle copy is older than the newest one, which was accepted before it. -/
theorem middleCopy_below :
    ∃ before d rest, [newestCopy] = before ++ d :: rest ∧ (d.inquiry threeCopies "GLIBCXX_").Reads ∧
      (oldestCopy.selected threeCopies "GLIBCXX_" before).verdict threeCopies "GLIBCXX_" d = .accept ∧
      oldestCopy.bar < d.version threeCopies "GLIBCXX_" ∧
      middleCopy.version threeCopies "GLIBCXX_" < d.version threeCopies "GLIBCXX_" := by
  refine ⟨[], newestCopy, [], rfl, by decide, newestCopy_accepted, ?_⟩
  rw [newestCopy_version, middleCopy_version]
  decide

theorem redirect_middleCopy :
    (openAt threeCopies ⟨"app/libstdc++.so.6"⟩ "GLIBCXX_").value = .ok oldestCopy ∧
      (oldestCopy.selected threeCopies "GLIBCXX_" [newestCopy]).verdict threeCopies "GLIBCXX_" middleCopy =
        .redirect ⟨"app/libstdc++.so.6"⟩ :=
  ⟨oldestCopy_open, ((redirect_iff_older_than_accepted oldestCopy_open).2 [newestCopy] middleCopy _).2
    ⟨rfl, by decide, Or.inr middleCopy_below⟩⟩

/-- The shipped library may be put in the place of a newer candidate: one that is older than a candidate accepted before. -/
theorem redirect_to_older :
    ¬ ∀ (files : Files) (family : String) (p : Path) (s : ShippedLibrary) (cs : List Candidate) (c : Candidate),
      (openAt files p family).value = .ok s → (s.selected files family cs).verdict files family c = .redirect p →
        c.version files family < s.bar := by
  intro h
  have hredirect : (oldestCopy.selected threeCopies "GLIBCXX_" [newestCopy]).verdict threeCopies "GLIBCXX_" middleCopy =
      .redirect ⟨"app/libstdc++.so.6"⟩ := by
    rw [verdict_eq, judge_redirect_iff, Candidate.inquiry_version, lt_selected_bar_iff]
    exact ⟨by rw [selected_eq, after_eq]; rfl, by decide, Or.inr middleCopy_below⟩
  have hlt := h threeCopies "GLIBCXX_" _ oldestCopy [newestCopy] middleCopy oldestCopy_open hredirect
  rw [middleCopy_version] at hlt
  exact absurd hlt (by decide)

end ShippedLibrary

end LibraryGuard
