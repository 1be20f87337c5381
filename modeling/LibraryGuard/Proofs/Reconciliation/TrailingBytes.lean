import LibraryGuard.Proofs.Elf.TrailingBytes
import LibraryGuard.Proofs.Search.Redirection
import LibraryGuard.Reconciliation

/-!
# Copies with something behind them

A library may be copied with a padding or a signature behind it. `IsCopy` relates such a copy to the original, wherever the two
are, and `IsPadded` relates two states of the files, in the second of which any number of originals have been replaced by such
copies. As long as the newest version of an original can be told, nothing in the guard tells the copy from it: neither the version
with its warnings, nor a selection, nor a reconciliation (`trailingBytes_ignored`).
-/

namespace LibraryGuard

/-- The second file is a copy of the first one with some bytes behind it, or with none, and the newest version of the family in
the first one can be told. -/
def IsCopy (family : String) (files : Files) (path : Path) (files' : Files) (path' : Path) : Prop :=
  ∃ image trailing v, files.read path = .ok image ∧ files'.read path' = .ok (image ++ trailing) ∧
    (Elf.newestVersion image family).value = .ok v

/-- Two states of the files, of which the second one has a copy in place of some files of the first one. -/
structure IsPadded (family : String) (files files' : Files) : Prop where
  isFile : files'.isFile = files.isFile
  read (path : Path) : files'.read path = files.read path ∨ IsCopy family files path files' path

variable {family : String} {files files' : Files} {path path' : Path}

/-- The newest version of a copy is that of the original, and so are the warnings. -/
theorem IsCopy.newestVersion_eq (h : IsCopy family files path files' path') :
    files'.newestVersion path' family = files.newestVersion path family := by
  obtain ⟨image, trailing, v, hread, hread', hv⟩ := h
  rw [Files.newestVersion, Files.newestVersion, hread, hread']
  -- an error would name the path, but there is none
  simp only [Elf.newestVersion_eq_of_isStart (Bytes.isStart_append image trailing) hv, bind, hv, Except.mapError]

theorem IsPadded.newestVersion_eq (h : IsPadded family files files') (path : Path) :
    files'.newestVersion path family = files.newestVersion path family := by
  rcases h.read path with hread | hcopy
  · rw [Files.newestVersion, Files.newestVersion, hread]
  · exact hcopy.newestVersion_eq

/-- The version of a copy that is a candidate is that of the original. Neither is taken for `0.0.0`. -/
theorem IsCopy.candidateVersion_eq (h : IsCopy family files path files' path') :
    ShippedLibrary.candidateVersion files' family path' = ShippedLibrary.candidateVersion files family path := by
  have hcopy := h.newestVersion_eq
  obtain ⟨image, -, v, hread, -, hv⟩ := h
  have htold := Files.newestVersion_of_read hread hv
  unfold ShippedLibrary.candidateVersion
  rw [hcopy]
  simp only [bind, htold]

/-- A copy at a path that leads to the target as the original's does is selected as the original is. -/
theorem IsCopy.select_eq (h : IsCopy family files path files' path') (s : ShippedLibrary) (origin : SearchOrigin)
    {target : String} (hfile : files'.isFile path' = files.isFile path) (hdirectory : path'.hasDirectory = path.hasDirectory)
    (hnamed : path'.isNamed target = path.isNamed target) :
    s.select files' path' origin target family = s.select files path origin target family := by
  unfold ShippedLibrary.select ShippedLibrary.selectWith
  rw [h.candidateVersion_eq, hfile, hdirectory, hnamed]
  split_ifs <;> rfl

/-- A reconciliation over copies is the one over the originals: the same calls, the same warnings and the same outcome. -/
theorem IsPadded.reconcile_eq {h : Host} (hpadded : IsPadded family h.files files') (target : String) (shipped : Path) :
    ({ h with files := files' } : Host).reconcile target family shipped = h.reconcile target family shipped := by
  have hsystem : ({ h with files := files' } : Host).checkSystem target = h.checkSystem target := by
    funext found
    cases found <;> simp only [Host.checkSystem, hpadded.isFile]
  have hshipped : ({ h with files := files' } : Host).checkShipped target shipped = h.checkShipped target shipped := by
    simp only [Host.checkShipped, hpadded.isFile]
  have hversions (system : Path) :
      ({ h with files := files' } : Host).versions family system shipped = h.versions family system shipped := by
    simp only [Host.versions, hpadded.newestVersion_eq]
  unfold Host.reconcile Host.compare
  simp only [hsystem, hshipped, hversions]
  rfl

/-- Bytes behind an image change no answer about it. Where the newest version of a family in an image can be told, it is told
alike of the image with anything behind it, with the same warnings. So it is of every copy of the file, at whichever path. A
copy whose path leads to the target as the original's does is selected as the original is. If any number of files are replaced
by such copies, a reconciliation makes the same calls, gives the same warnings and ends alike. -/
theorem trailingBytes_ignored (family : String) :
    (∀ image trailing v, (Elf.newestVersion image family).value = .ok v →
      Elf.newestVersion (image ++ trailing) family = Elf.newestVersion image family) ∧
    (∀ files path files' path', IsCopy family files path files' path' →
      files'.newestVersion path' family = files.newestVersion path family ∧
      ∀ (s : ShippedLibrary) (origin : SearchOrigin) (target : String), files'.isFile path' = files.isFile path →
        path'.hasDirectory = path.hasDirectory → path'.isNamed target = path.isNamed target →
        s.select files' path' origin target family = s.select files path origin target family) ∧
    ∀ (h : Host) files', IsPadded family h.files files' → ∀ target shipped,
      ({ h with files := files' } : Host).reconcile target family shipped = h.reconcile target family shipped := by
  refine ⟨?_, ?_, ?_⟩
  · intro image trailing v hv
    exact Elf.newestVersion_eq_of_isStart (Bytes.isStart_append image trailing) hv
  · intro files path files' path' hcopy
    exact ⟨hcopy.newestVersion_eq, fun s origin target => hcopy.select_eq s origin⟩
  · intro h files' hpadded target shipped
    exact hpadded.reconcile_eq target shipped

/-! ## Signed copies -/

section Signed

open ShippedLibrary

/-- What a signing tool writes behind a file. -/
def signature : Bytes := Bytes.ofText "~signed~\n"

/-- The shipped library and two copies of it, each with a signature behind it. -/
def signedCopies : Files := { threeCopies with read path := (threeCopies.read path).map (· ++ signature) }

/-- A host into which the copy of version `3.4.28` is mapped. -/
def middleHost (files : Files) : Host where
  files := files
  isMapped _ := true
  resolve _ := .ok middleCopy.path
  probe _ := .error (.probe "no worker")
  load path := .error (.load path "no linker")

theorem signedCopies_read (path : Path) : signedCopies.read path = (threeCopies.read path).map (· ++ signature) := rfl

theorem signedCopies_isCopy {path : Path} {image : Bytes} {v : Version} (hread : threeCopies.read path = .ok image)
    (hv : (Elf.newestVersion image "GLIBCXX_").value = .ok v) : IsCopy "GLIBCXX_" threeCopies path signedCopies path :=
  ⟨image, signature, v, hread, by rw [signedCopies_read, hread]; rfl, hv⟩

theorem signedCopies_isPadded : IsPadded "GLIBCXX_" threeCopies signedCopies where
  isFile := rfl
  read path := by
    cases hread : threeCopies.read path with
    | error cause => exact Or.inl (by rw [signedCopies_read, hread]; rfl)
    | ok image =>
      have hversion : ∃ v, (Elf.newestVersion image "GLIBCXX_").value = .ok v := by
        unfold threeCopies at hread
        dsimp only at hread
        split_ifs at hread <;> obtain rfl := Except.ok.inj hread <;>
          exact ⟨_, Elf.VersionImage.newestVersion_encode "GLIBCXX_" (by decide)
            ((Elf.VersionImage.size_encode_le _).trans_lt (by decide))⟩
      obtain ⟨v, hv⟩ := hversion
      exact Or.inr (signedCopies_isCopy hread hv)

/-- The newest copy is selected, and the mapped one reconciled with it, as if nothing had been signed. -/
theorem trailingBytes_ignored_signedCopies :
    let image := Elf.VersionImage.encode ["GLIBCXX_3.4.30"]
    (Elf.newestVersion image "GLIBCXX_").value = .ok ⟨3, 4, 30⟩ ∧
      (Elf.newestVersion (image ++ signature) "GLIBCXX_").value = .ok ⟨3, 4, 30⟩ ∧
      IsCopy "GLIBCXX_" threeCopies newestCopy.path signedCopies newestCopy.path ∧
      oldestCopy.select signedCopies newestCopy.path .builtIn "libstdc++.so.6" "GLIBCXX_" =
        oldestCopy.select threeCopies newestCopy.path .builtIn "libstdc++.so.6" "GLIBCXX_" ∧
      IsPadded "GLIBCXX_" threeCopies signedCopies ∧
      (middleHost signedCopies).reconcile "libstdc++.so.6" "GLIBCXX_" newestCopy.path =
        (middleHost threeCopies).reconcile "libstdc++.so.6" "GLIBCXX_" newestCopy.path := by
  intro image
  have hv : (Elf.newestVersion image "GLIBCXX_").value = .ok ⟨3, 4, 30⟩ :=
    Elf.VersionImage.newestVersion_encode "GLIBCXX_" (by decide) ((Elf.VersionImage.size_encode_le _).trans_lt (by decide))
  have hcopy : IsCopy "GLIBCXX_" threeCopies newestCopy.path signedCopies newestCopy.path := signedCopies_isCopy rfl hv
  obtain ⟨himage, hcopies, hpadded⟩ := trailingBytes_ignored "GLIBCXX_"
  refine ⟨hv, ?_, hcopy, (hcopies _ _ _ _ hcopy).2 oldestCopy .builtIn _ rfl rfl rfl, signedCopies_isPadded,
    hpadded (middleHost threeCopies) signedCopies signedCopies_isPadded _ _⟩
  rw [himage image signature _ hv, hv]

end Signed

end LibraryGuard
