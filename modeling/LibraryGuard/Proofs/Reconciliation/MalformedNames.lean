import LibraryGuard.Proofs.Reconciliation.Warnings

/-!
# Malformed versions are never passed over in silence

A name of the family that carries no version counts as `0.0.0`, in a library by itself and in a reconciliation of two. Each one
that is read is warned of, once and in order: in a reconciliation that decides something, first those of the system's copy and
then those of the shipped one (`malformedNames_warned`). So a decision that rests on such a name is never without its warning.
-/

namespace LibraryGuard

namespace Host

variable {h : Host} {target family : String} {shipped : Path}

/-- A version that is told of a file is that of an image, with the warnings about the image. -/
theorem newestVersion_image {files : Files} {path : Path} {v : Version}
    (hv : (files.newestVersion path family).value = .ok v) :
    ∃ image, files.read path = .ok image ∧ (Elf.newestVersion image family).value = .ok v ∧
      (files.newestVersion path family).warnings = (Elf.newestVersion image family).warnings := by
  unfold Files.newestVersion at *
  cases hr : files.read path with
  | error cause => simp [hr] at hv
  | ok image =>
    simp only [hr, Logged.value_bind, Logged.value_pure] at hv
    refine ⟨image, rfl, ?_, by simp⟩
    cases hi : (Elf.newestVersion image family).value with
    | error e => simp [hi, Except.mapError] at hv
    | ok v' => simpa [hi, Except.mapError] using hv

/-- What reconciliation warns of about one topic is not about a version. -/
theorem Tells.among_version {topic : Topic} {ws : List Warning} (ht : h.Tells target family shipped topic ws) :
    Source.version.among ws = [] := by
  obtain ⟨slot, rfl, -⟩ := ht
  cases slot <;> rfl

/-- The warnings about the versions are all about a version. -/
theorem among_version_versions (system : Path) :
    Source.version.among (h.versions family system shipped).warnings = (h.versions family system shipped).warnings :=
  List.filter_eq_self.2 fun _ hw => decide_eq_true (versions_source hw)

/-- The warnings about versions in a reconciliation of two copies that can be compared are those about the system's copy, and
then those about the shipped one. -/
theorem Compared.among_version {a b : Version} (hc : h.Compared target family shipped a b) :
    ∃ system image image', h.HasCopyAt target system ∧ h.files.read system = .ok image ∧
      h.files.read shipped = .ok image' ∧
      Source.version.among (h.reconcile target family shipped).warnings =
        (Elf.newestVersion image family).warnings ++ (Elf.newestVersion image' family).warnings := by
  obtain ⟨⟨system, hat, hfile, ha⟩, hshipped, hb⟩ := hc
  obtain ⟨image, hread, -, hwarnings⟩ := newestVersion_image ha
  obtain ⟨image', hread', -, hwarnings'⟩ := newestVersion_image hb
  refine ⟨system, image, image', hat, hread, hread', ?_⟩
  obtain ⟨hvalue, hall⟩ := reconcile_of_files family hat hfile hshipped
  obtain ⟨versions, bound, load, hcompare, hversions, hbound, hload⟩ := compare_tells hat hfile hshipped hvalue
  have hlooking : Source.version.among (h.lookingWarnings target shipped) = [] := by
    simp [lookingWarnings, (h.systemCopy_tells target family shipped).among_version,
      (h.checkShipped_tells target family shipped).among_version, (h.checkSystem_tells target family shipped).among_version]
  have hboth : (h.versions family system shipped).warnings =
      (h.files.newestVersion system family).warnings ++ (h.files.newestVersion shipped family).warnings := by
    unfold Host.versions
    simp [ha]
  rw [hall, hcompare, Source.among_append, hlooking, Source.among_append, among_version_versions, hboth, hwarnings, hwarnings']
  simp [hversions.among_version, hbound.among_version, hload.among_version]

/-- The warnings about versions in a reconciliation that decides something are those about the system's copy, and then those
about the shipped one. -/
theorem among_version_of_decided (hne : (h.reconcile target family shipped).value ≠ .indeterminate) :
    ∃ system image image', h.HasCopyAt target system ∧ h.files.read system = .ok image ∧
      h.files.read shipped = .ok image' ∧
      Source.version.among (h.reconcile target family shipped).warnings =
        (Elf.newestVersion image family).warnings ++ (Elf.newestVersion image' family).warnings := by
  by_cases hc : ∃ a b, h.Compared target family shipped a b
  · obtain ⟨a, b, hc⟩ := hc
    exact hc.among_version
  · exact absurd (reconcile_of_not_compared hc).1 hne

end Host

/-- What becomes of the names of a family that carry no version. The warnings about an image are one for each such name that the
walk reads, in the order of their places, and leaving such a name out changes no answer. The warnings about versions in a
reconciliation that decides something are those about the system's copy and then those about the shipped one, so that a shipped
copy that is not newer than the system's with such a name in it is warned of. -/
theorem malformedNames_warned (family : String) :
    (∀ image, ∃ rests : List (Elf.Placed String), rests.Pairwise Elf.Placed.Before ∧
      (∀ rest, rest ∈ rests ↔
        Elf.Reads image rest.definition rest.name (family ++ rest.item) ∧ ¬ Version.IsText rest.item) ∧
      List.Forall₂ (fun rest w => Version.Complains rest.item w) rests (Elf.newestVersion image family).warnings) ∧
    (∀ rest, ¬ Version.IsText rest → ∀ image image' before after, Elf.Finds image (before ++ .ok (family ++ rest) :: after) →
      Elf.Finds image' (before ++ after) →
        (Elf.newestVersion image family).value = (Elf.newestVersion image' family).value) ∧
    (∀ (h : Host) target shipped, (h.reconcile target family shipped).value ≠ .indeterminate →
      ∃ system image image', h.HasCopyAt target system ∧ h.files.read system = .ok image ∧
        h.files.read shipped = .ok image' ∧
        Source.version.among (h.reconcile target family shipped).warnings =
          (Elf.newestVersion image family).warnings ++ (Elf.newestVersion image' family).warnings) ∧
    ∀ (h : Host) target shipped a b image, (h.reconcile target family shipped).value = .upToDate a b →
      h.files.read shipped = .ok image → ∀ i j rest, Elf.Reads image i j (family ++ rest) → ¬ Version.IsText rest →
        ∃ w ∈ (h.reconcile target family shipped).warnings, Version.Complains rest w := by
  refine ⟨fun image => Elf.newestVersion_complaints image family, fun rest hrest _ _ _ _ => Elf.newestVersion_omit hrest,
    fun h target shipped => Host.among_version_of_decided, ?_⟩
  intro h target shipped a b image hvalue hread i j rest hreads hrest
  obtain ⟨system, _, image', -, -, hread', hamong⟩ := Host.among_version_of_decided (h := h) (by rw [hvalue]; exact nofun)
  obtain rfl := Except.ok.inj (hread.symm.trans hread')
  obtain ⟨w, hw, hcomplains⟩ := hreads.exists_complaint hrest
  have hin : w ∈ Source.version.among (h.reconcile target family shipped).warnings := by
    rw [hamong]
    exact List.mem_append_right _ hw
  exact ⟨w, (List.mem_filter.1 hin).1, hcomplains⟩

/-! ## A name with a letter in the place of its version -/

/-- Names of which the second one carries no version. -/
def letteredNames : List String := ["GLIBCXX_3.4.21", "GLIBCXX_é"]

theorem letteredNames_rest {i : Nat} {rest : String} (h : letteredNames[i]? = some ("GLIBCXX_" ++ rest))
    (hrest : ¬ Version.IsText rest) : i = 1 ∧ rest = "é" := by
  rcases i with _ | _ | i
  · have hname : "GLIBCXX_" ++ "3.4.21" = "GLIBCXX_" ++ rest := Option.some.inj h
    obtain rfl := (String.append_right_inj "GLIBCXX_").1 hname
    exact absurd (by decide) hrest
  · have hname : "GLIBCXX_" ++ "é" = "GLIBCXX_" ++ rest := Option.some.inj h
    exact ⟨rfl, ((String.append_right_inj "GLIBCXX_").1 hname).symm⟩
  · nomatch h

theorem size_letteredNames : (Elf.VersionImage.encode letteredNames).size < 2 ^ 32 :=
  (Elf.VersionImage.size_encode_le letteredNames).trans_lt (by decide)

/-- In the image of these names one name is malformed. -/
theorem malformed_letteredNames_iff (rest : Elf.Placed String) :
    (Elf.Reads (Elf.VersionImage.encode letteredNames) rest.definition rest.name ("GLIBCXX_" ++ rest.item) ∧
      ¬ Version.IsText rest.item) ↔ rest = ⟨1, 0, "é"⟩ := by
  obtain ⟨i, j, item⟩ := rest
  rw [Elf.reads_encode_iff (by decide) size_letteredNames]
  constructor
  · rintro ⟨⟨hname, hfirst⟩, hnot⟩
    obtain ⟨rfl, rfl⟩ : i = 1 ∧ item = "é" := letteredNames_rest hname hnot
    obtain rfl : j = 0 := hfirst
    rfl
  · rintro ⟨⟩
    exact ⟨⟨by decide, rfl⟩, by decide⟩

/-- The system's copy is up to date if the shipped one has these names and it has a newer one. -/
theorem upToDate_letteredNames :
    ((Host.mappedCopies ["GLIBCXX_3.4.30"] letteredNames).reconcile "libstdc++.so.6" "GLIBCXX_" ⟨"app/libstdc++.so.6"⟩).value =
      .upToDate ⟨3, 4, 30⟩ ⟨3, 4, 21⟩ := by
  let h := Host.mappedCopies ["GLIBCXX_3.4.30"] letteredNames
  have hsystem : h.HasVersion "GLIBCXX_" ⟨"/usr/lib/libstdc++.so.6"⟩ ⟨3, 4, 30⟩ :=
    ⟨rfl, Files.newestVersion_of_encode rfl (by decide) (by decide) (by decide)⟩
  have hshipped : h.HasVersion "GLIBCXX_" ⟨"app/libstdc++.so.6"⟩ ⟨3, 4, 21⟩ :=
    ⟨rfl, Files.newestVersion_of_encode rfl (by decide) (by decide) (by decide)⟩
  obtain ⟨system, hacts, -⟩ := Host.reconcile_of_compared (h := h) ⟨⟨_, Or.inl ⟨rfl, rfl⟩, hsystem⟩, hshipped⟩
  exact hacts.trans (h.act_of_le _ _ _ _ (by decide)).1

/-- The image of these names gives one warning, and so does a reconciliation in which the shipped copy is this image and the
system's one is new enough. -/
theorem malformedNames_warned_letteredNames :
    let image := Elf.VersionImage.encode letteredNames
    let r := (Host.mappedCopies ["GLIBCXX_3.4.30"] letteredNames).reconcile "libstdc++.so.6" "GLIBCXX_" ⟨"app/libstdc++.so.6"⟩
    (∃ w, (Elf.newestVersion image "GLIBCXX_").warnings = [w] ∧ Version.Complains "é" w) ∧
      (Elf.newestVersion image "GLIBCXX_").value =
        (Elf.newestVersion (Elf.VersionImage.encode ["GLIBCXX_3.4.21"]) "GLIBCXX_").value ∧
      r.value = .upToDate ⟨3, 4, 30⟩ ⟨3, 4, 21⟩ ∧ ∃ w ∈ r.warnings, Version.Complains "é" w := by
  intro image r
  obtain ⟨hreads, hrest⟩ := (malformed_letteredNames_iff _).2 rfl
  obtain ⟨heach, homit, -, hdecided⟩ := malformedNames_warned "GLIBCXX_"
  refine ⟨?_, ?_, upToDate_letteredNames, hdecided _ _ _ _ _ image upToDate_letteredNames rfl 1 0 "é" hreads hrest⟩
  · obtain ⟨rests, hordered, hmem, hall⟩ := heach image
    have honly : rests = [⟨1, 0, "é"⟩] :=
      Elf.eq_singleton_of_pairwise hordered fun rest => (hmem rest).trans (malformed_letteredNames_iff rest)
    rw [honly] at hall
    obtain ⟨w, ws, hw, hnil, hwarnings⟩ := List.forall₂_cons_left_iff.1 hall
    obtain rfl := List.forall₂_nil_left_iff.1 hnil
    exact ⟨w, hwarnings, hw⟩
  · exact homit "é" hrest image _ [.ok "GLIBCXX_3.4.21"] [] (Elf.finds_encode (by decide) size_letteredNames)
      (Elf.finds_encode (by decide) ((Elf.VersionImage.size_encode_le _).trans_lt (by decide)))

end LibraryGuard
