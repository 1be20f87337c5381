import LibraryGuard.Proofs.Reconciliation
import LibraryGuard.Proofs.Search.Redirection

/-!
# The search and the reconciliation agree

A candidate of the linker's search may be the very copy that a fresh process would take. When the versions of this copy and of
the shipped library can be told, and the target is not mapped yet, a selection among the two and a reconciliation of the two
come to the same (`select_agrees`): the shipped library is put in the candidate's place exactly when it would be loaded, and
the candidate is accepted exactly when it would be left alone. Equal versions leave the candidate in both.
-/

namespace LibraryGuard

namespace ShippedLibrary

variable {files : Files} {family : String} {c : Candidate} {v : Version}

/-- A candidate of a known version is replaced if it is below the bar, and becomes the bar if not. -/
theorem select_of_version (s : ShippedLibrary) (hreads : (c.inquiry files family).Reads)
    (hv : (files.newestVersion c.path family).value = .ok v) :
    (s.select files c.path c.origin c.target family).value =
      if v < s.bar then (.redirect s.path, s) else (.accept, ⟨s.path, v⟩) := by
  have hversion : (c.inquiry files family).version = v := candidate_version_of_ok files family hv
  calc (s.select files c.path c.origin c.target family).value
      = (s.judge (c.inquiry files family)).value := rfl
    _ = if v < s.bar then (.redirect s.path, s) else (.accept, ⟨s.path, v⟩) := by rw [judge_of_reads s hreads, hversion]

end ShippedLibrary

namespace Host

variable {h : Host} {target family : String} {shipped candidate : Path} {a b : Version}

/-- A reconciliation with a copy that is not mapped, but that the probe finds, leaves it alone if it is new enough, and loads
the shipped one otherwise. -/
theorem reconcile_of_probed (hunmapped : h.isMapped target = false) (hprobe : h.probe target = .ok candidate)
    (hsystem : h.HasVersion family candidate a) (hshipped : h.HasVersion family shipped b) :
    h.Compared target family shipped a b ∧
      (b ≤ a → (h.reconcile target family shipped).value = .upToDate a b ∧
        (h.reconcile target family shipped).calls = [.find target, .probe target]) ∧
      (a < b → (h.reconcile target family shipped).value =
          (match h.load shipped with
            | .ok () => .loaded shipped a b
            | .error e => .loadFailed shipped e.message) ∧
        (h.reconcile target family shipped).calls = [.find target, .probe target, .load shipped]) := by
  have hcompared : h.Compared target family shipped a b :=
    ⟨⟨candidate, Or.inr ⟨hunmapped, hprobe⟩, hsystem⟩, hshipped⟩
  obtain ⟨system, hvalue, hcalls⟩ := reconcile_of_compared hcompared
  have hlooks : h.locating target = .probe target := by simp [locating, hunmapped]
  rw [hunmapped] at hvalue hcalls
  rw [hlooks] at hcalls
  refine ⟨hcompared, fun hle => ?_, fun hlt => ?_⟩
  · obtain ⟨hacts, hnocall⟩ := act_of_le h target system shipped false hle
    exact ⟨hvalue.trans hacts, by rw [hcalls, hnocall]; rfl⟩
  · obtain ⟨hacts, honecall⟩ := act_of_unbound h target system shipped hlt
    exact ⟨hvalue.trans hacts, by rw [hcalls, honecall]; rfl⟩

/-- Selecting and reconciling agree on a copy and a shipped library whose versions can be told. The shipped library is put in the
place of the copy exactly when it is loaded ahead of it, whether or not loading it goes well, and the copy is accepted exactly
when it is up to date. The bar after the selection is the larger one of the two versions that are compared. -/
theorem select_agrees {origin : SearchOrigin} (hdirectory : candidate.hasDirectory = true)
    (hname : candidate.isNamed target = true) (horigin : origin ≠ .runPath) (hunmapped : h.isMapped target = false)
    (hprobe : h.probe target = .ok candidate) (hsystem : h.HasVersion family candidate a)
    (hshipped : h.HasVersion family shipped b) :
    ∃ s, (ShippedLibrary.openAt h.files shipped family).value = .ok s ∧
      let selected := (s.select h.files candidate origin target family).value
      let run := h.reconcile target family shipped
      (selected.1 = .redirect shipped ↔ .load shipped ∈ run.calls) ∧
        (selected.1 = .accept ↔ ∃ v w, run.value = .upToDate v w) ∧
        (b ≤ a ∧ selected.1 = .accept ∧ run.value = .upToDate a b ∨
          a < b ∧ selected.1 = .redirect shipped ∧ run.value = .loaded shipped a b ∨
          a < b ∧ selected.1 = .redirect shipped ∧ ∃ reason, run.value = .loadFailed shipped reason) ∧
        h.Compared target family shipped a b ∧ selected.2.bar = max a b := by
  obtain ⟨hcompared, hleave, hload⟩ := reconcile_of_probed hunmapped hprobe hsystem hshipped
  have hselect := ShippedLibrary.select_of_version (c := ⟨candidate, origin, target⟩) ⟨shipped, b⟩
    ⟨⟨hdirectory, hname⟩, horigin, hsystem.1⟩ hsystem.2
  refine ⟨⟨shipped, b⟩, ShippedLibrary.openAt_eq_ok_iff.2 ⟨rfl, hshipped.2⟩, ?_⟩
  intro selected run
  rcases le_or_gt b a with hle | hlt
  · obtain ⟨hvalue, hcalls⟩ := hleave hle
    have hselected : selected = (.accept, ⟨shipped, a⟩) := hselect.trans (if_neg hle.not_gt)
    simp [run, hselected, hvalue, hcalls, hcompared, hle]
  · obtain ⟨hvalue, hcalls⟩ := hload hlt
    have hselected : selected = (.redirect shipped, ⟨shipped, b⟩) := hselect.trans (if_pos hlt)
    cases hl : h.load shipped with
    | ok _ => simp [run, hselected, hvalue, hcalls, hl, hcompared, hlt, max_eq_right hlt.le]
    | error e => simp [run, hselected, hvalue, hcalls, hl, hcompared, hlt, max_eq_right hlt.le]

/-- A process with three copies at hand, of which a probe finds the one of version `3.4.28`, and in which nothing is mapped. -/
def middleProbed : Host where
  files := ShippedLibrary.threeCopies
  isMapped _ := false
  resolve _ := .error (.resolution "invalid handle")
  probe _ := .ok ⟨"mid/libstdc++.so.6"⟩
  load _ := .ok ()

theorem middleProbed_system : middleProbed.HasVersion "GLIBCXX_" ⟨"mid/libstdc++.so.6"⟩ ⟨3, 4, 28⟩ :=
  ⟨rfl, Files.newestVersion_of_encode rfl (by decide) (by decide) (by decide)⟩

theorem middleProbed_shipped : middleProbed.HasVersion "GLIBCXX_" ⟨"new/libstdc++.so.6"⟩ ⟨3, 4, 30⟩ :=
  ⟨rfl, Files.newestVersion_of_encode rfl (by decide) (by decide) (by decide)⟩

theorem select_agrees_middleProbed :
    ∃ s, (ShippedLibrary.openAt middleProbed.files ⟨"new/libstdc++.so.6"⟩ "GLIBCXX_").value = .ok s ∧
      let selected := (s.select middleProbed.files ⟨"mid/libstdc++.so.6"⟩ .builtIn "libstdc++.so.6" "GLIBCXX_").value
      let run := middleProbed.reconcile "libstdc++.so.6" "GLIBCXX_" ⟨"new/libstdc++.so.6"⟩
      selected.1 = .redirect ⟨"new/libstdc++.so.6"⟩ ∧ .load ⟨"new/libstdc++.so.6"⟩ ∈ run.calls ∧
        selected.2.bar = ⟨3, 4, 30⟩ := by
  have hname : (⟨"mid/libstdc++.so.6"⟩ : Path).isNamed "libstdc++.so.6" = true := by decide
  have horigin : SearchOrigin.builtIn ≠ .runPath := by decide
  obtain ⟨s, hopen, hloads, -, hends, -, hbar⟩ :=
    select_agrees (by decide) hname horigin rfl rfl middleProbed_system middleProbed_shipped
  have holder : (⟨3, 4, 28⟩ : Version) < ⟨3, 4, 30⟩ := by decide
  rcases hends with ⟨hle, -⟩ | ⟨-, hredirect, -⟩ | ⟨-, hredirect, -⟩
  · exact absurd holder hle
  all_goals exact ⟨s, hopen, hredirect, hloads.1 hredirect, hbar.trans (max_eq_right holder.le)⟩

end Host

end LibraryGuard
