import LibraryGuard.Proofs.Version.Order
import LibraryGuard.Search.Selection
import Mathlib.Data.List.Induction
import Mathlib.Data.List.Perm.Basic
import Mathlib.Order.Bounds.Basic

/-!
# A run of selections, and the bar that it raises

A linker's search asks about one candidate after the other, and the files may change in between. `Inquiry` is one such question
with the state of the files at its time, and `ShippedLibrary.after` is the shipped library after some of them. The version of a
candidate is read only for an inquiry that `Reads`. The bar is always the largest of the first bar and all versions read so far
(`after_eq`), so it does not depend on the order of the inquiries, although the verdicts do (`judge_verdict_and_bar`).
-/

namespace LibraryGuard

/-- One question to a selection: the state of the files, the candidate, the part of the search that it comes from, the target's
name, and what the caller answers when it is asked for a version. -/
structure Inquiry where
  files : Files
  candidate : Path
  origin : SearchOrigin
  target : String
  versionOf : Path → Logged Version

namespace Inquiry

/-- The candidate is a path to the target: it has a directory part and the target's name. -/
def LeadsToTarget (q : Inquiry) : Prop := q.candidate.hasDirectory = true ∧ q.candidate.isNamed q.target = true

/-- The candidate's version matters: it is a path to the target, not from the executable's own lists, and leads to a file. -/
def Reads (q : Inquiry) : Prop := q.LeadsToTarget ∧ q.origin ≠ .runPath ∧ q.files.isFile q.candidate = true

instance (q : Inquiry) : Decidable q.LeadsToTarget := inferInstanceAs (Decidable (_ ∧ _))

instance (q : Inquiry) : Decidable q.Reads := inferInstanceAs (Decidable (_ ∧ _))

/-- What the caller answers about the candidate. -/
def version (q : Inquiry) : Version := (q.versionOf q.candidate).value

/-- The versions that are read for some inquiries, in order. -/
def versionsRead (qs : List Inquiry) : List Version := (qs.filter (·.Reads)).map version

end Inquiry

namespace ShippedLibrary

/-- What an inquiry comes to: the verdict, the shipped library after it, and the paths whose version the caller was asked for.
-/
def judge (s : ShippedLibrary) (q : Inquiry) : Traced Path (Verdict × ShippedLibrary) :=
  s.selectWith q.files q.candidate q.origin q.target q.versionOf

/-- The shipped library after some inquiries, one after the other. -/
def after (s : ShippedLibrary) (qs : List Inquiry) : ShippedLibrary := qs.foldl (fun s q => (s.judge q).value.2) s

/-! ## One inquiry -/

variable (s : ShippedLibrary) {q : Inquiry}

/-- A candidate that is no path to the target, or that is no file, is left to the linker, and one from the executable's own
lists is rejected; all this without a question to the caller. -/
theorem judge_of_not_reads (h : ¬ q.Reads) :
    s.judge q = ⟨(if q.LeadsToTarget ∧ q.origin = .runPath then .reject else .accept, s), [], []⟩ := by
  unfold judge selectWith
  by_cases hl : q.LeadsToTarget
  · obtain ⟨hdir, hname⟩ := hl
    by_cases ho : q.origin = .runPath
    · simp [hdir, hname, ho, Inquiry.LeadsToTarget]
      rfl
    · have hf : q.files.isFile q.candidate = false := by
        simpa using fun hfile => h ⟨⟨hdir, hname⟩, ho, hfile⟩
      simp [hdir, hname, ho, hf]
      rfl
  · have hskip : (!q.candidate.hasDirectory || !q.candidate.isNamed q.target) = true := by
      simpa [Inquiry.LeadsToTarget, -not_and, not_and_or] using hl
    simp [hskip, hl]
    rfl

/-- A candidate whose version is read is replaced by the shipped library if it is below the bar, and becomes the bar if not. -/
theorem judge_of_reads (h : q.Reads) :
    s.judge q =
      ⟨if q.version < s.bar then (.redirect s.path, s) else (.accept, { s with bar := q.version }), [q.candidate],
        (q.versionOf q.candidate).warnings⟩ := by
  obtain ⟨⟨hdir, hname⟩, ho, hf⟩ := h
  unfold judge selectWith Inquiry.version
  by_cases hv : (q.versionOf q.candidate).value < s.bar
  · apply Traced.ext <;> simp [hdir, hname, ho, hf, hv]
  · apply Traced.ext <;> simp [hdir, hname, ho, hf, hv]

/-- One inquiry raises the bar to the version that is read for it, if that is larger, and keeps the path. -/
theorem judge_library (q : Inquiry) :
    (s.judge q).value.2 = ⟨s.path, (Inquiry.versionsRead [q]).foldl max s.bar⟩ := by
  by_cases h : q.Reads
  · rw [judge_of_reads s h]
    by_cases hv : q.version < s.bar
    · simp [Inquiry.versionsRead, h, hv, max_eq_left hv.le]
    · simp [Inquiry.versionsRead, h, hv, max_eq_right (not_lt.1 hv)]
  · rw [judge_of_not_reads s h]
    simp [Inquiry.versionsRead, h]

/-! ## A run of inquiries -/

/-- After some inquiries the path is the same, and the bar is the largest of the first one and all versions read. -/
theorem after_eq (qs : List Inquiry) : s.after qs = ⟨s.path, (Inquiry.versionsRead qs).foldl max s.bar⟩ := by
  induction qs generalizing s with
  | nil => rfl
  | cons q qs ih =>
    have hsplit : Inquiry.versionsRead (q :: qs) = Inquiry.versionsRead [q] ++ Inquiry.versionsRead qs := by
      simp [Inquiry.versionsRead, ← List.map_append, ← List.filter_append]
    calc s.after (q :: qs) = (s.judge q).value.2.after qs := rfl
      _ = ⟨s.path, (Inquiry.versionsRead qs).foldl max ((Inquiry.versionsRead [q]).foldl max s.bar)⟩ := by
        rw [ih, judge_library]
      _ = ⟨s.path, (Inquiry.versionsRead (q :: qs)).foldl max s.bar⟩ := by rw [hsplit, List.foldl_append]

/-- Whatever the order of some inquiries, they leave the same library. -/
theorem after_perm {qs qs' : List Inquiry} (h : qs.Perm qs') : s.after qs = s.after qs' := by
  have hread : (Inquiry.versionsRead qs).Perm (Inquiry.versionsRead qs') := (h.filter _).map _
  rw [after_eq, after_eq, hread.foldl_eq]

/-- A version reaches the bar after some inquiries exactly when it reaches the first bar and every version read. -/
theorem after_bar_le_iff (qs : List Inquiry) (v : Version) :
    (s.after qs).bar ≤ v ↔ s.bar ≤ v ∧ ∀ w ∈ Inquiry.versionsRead qs, w ≤ v := by
  rw [after_eq]
  exact Version.foldl_max_le_iff ..

/-- The shipped library is put in the candidate's place exactly when the candidate's version is read, and is below the bar. -/
theorem judge_redirect_iff {path : Path} :
    (s.judge q).value.1 = .redirect path ↔ path = s.path ∧ q.Reads ∧ q.version < s.bar := by
  by_cases h : q.Reads
  · by_cases hv : q.version < s.bar
    · simp [judge_of_reads s h, h, hv, eq_comm]
    · simp [judge_of_reads s h, hv]
  · rw [judge_of_not_reads s h]
    simp [h]
    split <;> simp

/-- A candidate whose version is read is accepted exactly when its version reaches the bar. -/
theorem judge_accept_iff (h : q.Reads) : (s.judge q).value.1 = .accept ↔ s.bar ≤ q.version := by
  rw [judge_of_reads s h]
  by_cases hv : q.version < s.bar
  · simp [hv]
  · simp [hv, not_lt.1 hv]

/-- The bar is the first one, or the version of a candidate that was accepted on the way. -/
theorem after_bar_eq (qs : List Inquiry) :
    (s.after qs).bar = s.bar ∨ ∃ before q rest, qs = before ++ q :: rest ∧ q.Reads ∧
      ((s.after before).judge q).value.1 = .accept ∧ (s.after qs).bar = q.version := by
  -- From the back: the last inquiry either becomes the bar itself, or leaves it where an earlier one put it.
  induction qs using List.reverseRecOn with
  | nil => exact Or.inl rfl
  | append_singleton before q ih =>
    have hnext : s.after (before ++ [q]) = ((s.after before).judge q).value.2 := by simp [after]
    by_cases hraised : q.Reads ∧ (s.after before).bar ≤ q.version
    · obtain ⟨hreads, hle⟩ := hraised
      refine Or.inr ⟨before, q, [], rfl, hreads, (judge_accept_iff _ hreads).2 hle, ?_⟩
      rw [hnext, judge_of_reads _ hreads, if_neg hle.not_gt]
    · have hsame : (s.after (before ++ [q])).bar = (s.after before).bar := by
        rw [hnext]
        by_cases hreads : q.Reads
        · rw [judge_of_reads _ hreads, if_pos (not_le.1 fun hle => hraised ⟨hreads, hle⟩)]
        · rw [judge_of_not_reads _ hreads]
      rw [hsame]
      rcases ih with hbar | ⟨before', q', rest, rfl, hreads, haccept, hbar⟩
      · exact Or.inl hbar
      · exact Or.inr ⟨before', q', rest ++ [q], by simp, hreads, haccept, hbar⟩

/-- What a shipped library answers in a run of inquiries, and where the run leaves it. Each inquiry asks the caller for the
version of its own candidate, once, exactly when it reads one. If it does not, the bar stays, and the candidate is rejected
when it is a path to the target from the executable's own lists, and accepted otherwise. If it does, the candidate is accepted
when its version reaches the first bar and every version read before, and replaced by the shipped library otherwise. The path
never changes, the bar is the largest of the first one and all versions read, and other orders of the same inquiries lead to
the same bar. -/
theorem judge_verdict_and_bar (s : ShippedLibrary) :
    (∀ (before : List Inquiry) (q : Inquiry),
      let r := (s.after before).judge q
      r.calls = (if q.Reads then [q.candidate] else []) ∧
      r.value.2 = s.after (before ++ [q]) ∧
      (¬ q.Reads → r.value.2 = s.after before ∧
        (q.LeadsToTarget ∧ q.origin = .runPath → r.value.1 = .reject) ∧
        (¬ (q.LeadsToTarget ∧ q.origin = .runPath) → r.value.1 = .accept)) ∧
      (q.Reads →
        (s.bar ≤ q.version ∧ (∀ v ∈ Inquiry.versionsRead before, v ≤ q.version) → r.value.1 = .accept) ∧
        (¬ (s.bar ≤ q.version ∧ ∀ v ∈ Inquiry.versionsRead before, v ≤ q.version) →
          r.value.1 = .redirect s.path))) ∧
    (∀ qs : List Inquiry, (s.after qs).path = s.path ∧
      IsGreatest {v | v = s.bar ∨ v ∈ Inquiry.versionsRead qs} (s.after qs).bar) ∧
    ∀ qs qs' : List Inquiry, qs.Perm qs' → s.after qs = s.after qs' := by
  refine ⟨?_, ?_, fun qs qs' h => after_perm s h⟩
  · intro before q r
    have hpath : (s.after before).path = s.path := by rw [after_eq]
    have hnext : r.value.2 = s.after (before ++ [q]) := by simp [r, after]
    refine ⟨?_, hnext, ?_, ?_⟩
    · by_cases h : q.Reads
      · simp [r, judge_of_reads _ h, h]
      · simp [r, judge_of_not_reads _ h, h]
    · intro h
      have hr : r = _ := judge_of_not_reads _ h
      rw [hr]
      exact ⟨rfl, fun hown => if_pos hown, fun hother => if_neg hother⟩
    · intro h
      simp only [r, judge_of_reads _ h, ← after_bar_le_iff, ← hpath]
      exact ⟨fun hle => by rw [if_neg hle.not_gt], fun hlt => by rw [if_pos (not_le.1 hlt)]⟩
  · intro qs
    rw [after_eq]
    exact ⟨rfl, Version.isGreatest_foldl_max ..⟩

end ShippedLibrary

end LibraryGuard
