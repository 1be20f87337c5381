import LibraryGuard.Proofs.Dependency.Walk
import LibraryGuard.Proofs.Guard.Run
import LibraryGuard.Proofs.Path.Naming
import LibraryGuard.Proofs.Search.Selection
import LibraryGuard.Search.SearchList

/-!
# The paths where a library is looked for are paths to it

A search list gives the paths where a library may be, and a shipped path that is no file is taken as the directory that the
library is in. In both the name of the library is joined to a directory (`IsLocated.exists_join`), and however that directory is
written, the name is found again at the end of the path. So the dependency walk, the guard and the selection all know such a path
as one to the library (`located_isNamed`).
-/

namespace LibraryGuard

/-- A path where a library of the given name is looked for: a candidate of a search list, or the place of the shipped library
when the path to that is no file. -/
inductive IsLocated (name : String) : Path → Prop where
  | candidate {list : String} {origin p : Path} (h : p ∈ SearchList.candidates list origin name) : IsLocated name p
  | shipped {files : Files} {path : Path} (h : files.isFile path = false) : IsLocated name (shippedLibrary files path name)

variable {name : String} {p : Path}

/-- Such a path is a directory with the name joined to it. -/
theorem IsLocated.exists_join (h : IsLocated name p) : ∃ directory : Path, p = directory.join ⟨name⟩ := by
  cases h with
  | candidate h =>
    obtain ⟨entry, -, rfl⟩ := List.mem_map.1 h
    exact ⟨_, rfl⟩
  | @shipped files path h =>
    refine ⟨path, ?_⟩
    rw [shippedLibrary, if_neg (by rw [h]; exact Bool.false_ne_true)]

/-- Such a path has the name. -/
theorem IsLocated.isNamed (h : IsLocated name p) (hname : Path.IsFileName name) : p.isNamed name = true := by
  obtain ⟨directory, rfl⟩ := h.exists_join
  exact Path.isNamed_join hname directory

/-- A hook knows a path that has the target's name without asking its check, and spends an armed guard on it. -/
theorem Interceptor.onEvent_of_isNamed (i : Interceptor) (kind : EventKind) (shipped : Path) (h : p.isNamed i.target = true) :
    i.qualifies p = pure (some true) ∧
      (i.onEvent ⟨shipped, true⟩ ⟨kind, some p⟩).calls = .reconcile shipped :: (i.reconcile shipped).calls ∧
      (i.onEvent ⟨shipped, true⟩ ⟨kind, some p⟩).value.2 = ⟨shipped, false⟩ := by
  let d : Delivery := ⟨i, ⟨kind, some p⟩⟩
  have hbinds : d.Binds := ⟨p, rfl, Or.inl h⟩
  have hasked : d.checkCalls = [] := by
    simp only [d, Delivery.checkCalls, Delivery.asked, Option.filter_some]
    simp [h]
  have hspent : i.onEvent ⟨shipped, true⟩ ⟨kind, some p⟩ = _ := d.onEvent_of_binds shipped hbinds
  refine ⟨?_, ?_, ?_⟩
  · rw [qualifies_eq, if_pos h]
    rfl
  · rw [hspent, Delivery.strikeCalls, hasked]
    rfl
  · rw [hspent]

/-- A path to the target that an inquiry is about is never let go as one to something else: if it comes from the executable's own
lists it is rejected, and otherwise its version decides, unless there is no file to read it from. -/
theorem ShippedLibrary.judge_of_leadsToTarget (s : ShippedLibrary) {q : Inquiry} (h : q.LeadsToTarget) :
    (q.origin = .runPath → (s.judge q).value.1 = .reject) ∧
      (q.origin ≠ .runPath → q.files.isFile q.candidate = true →
        (s.judge q).calls = [q.candidate] ∧ ((s.judge q).value.1 = .accept ↔ s.bar ≤ q.version)) := by
  constructor
  · intro horigin
    rw [s.judge_of_not_reads fun hreads => hreads.2.1 horigin, if_pos ⟨h, horigin⟩]
  · intro horigin hfile
    have hreads : q.Reads := ⟨h, horigin, hfile⟩
    exact ⟨by rw [s.judge_of_reads hreads], s.judge_accept_iff hreads⟩

/-- A path has a file name as its name exactly if, without the slashes and the `.` components at its end, it is the name, or
ends in a slash with the name behind it. So every path where a library of that name is looked for has the name, however its
directory is written: it leads to the target without a question to the lister, a hook spends an armed guard on it without asking
its check, and if it has a directory part, a selection rejects it or goes by its version, as long as there is a file to read. -/
theorem located_isNamed (hname : Path.IsFileName name) :
    (∀ p : Path, (∃! core, Path.IsStripped p.chars core) ∧ ∀ core, Path.IsStripped p.chars core →
      (p.isNamed name = true ↔ core = name.toList ∨ '/' :: name.toList <:+ core)) ∧
    ∀ p, IsLocated name p → p.isNamed name = true ∧
      (∀ (w : Dependency.Walker) (files : Files), w.target = name → w.dependsOnTarget files p = pure true) ∧
      (∀ (i : Interceptor) (kind : EventKind) (shipped : Path), i.target = name →
        let answer := i.onEvent ⟨shipped, true⟩ ⟨kind, some p⟩
        i.qualifies p = pure (some true) ∧ answer.calls = .reconcile shipped :: (i.reconcile shipped).calls ∧
          answer.value.2 = ⟨shipped, false⟩) ∧
      (p.hasDirectory = true → ∀ (s : ShippedLibrary) (q : Inquiry), q.candidate = p → q.target = name →
        (q.origin = .runPath → (s.judge q).value.1 = .reject) ∧
        (q.origin ≠ .runPath → q.files.isFile p = true →
          (s.judge q).calls = [p] ∧ ((s.judge q).value.1 = .accept ↔ s.bar ≤ q.version))) := by
  constructor
  · intro p
    have hunique : ∃! core, Path.IsStripped p.chars core :=
      ⟨p.trimmed, Path.isStripped_iff.2 rfl, fun core hcore => Path.isStripped_iff.1 hcore⟩
    exact ⟨hunique, fun core hcore => Path.isNamed_iff_of_isStripped hname hcore⟩
  · intro p hlocated
    have hnamed := hlocated.isNamed hname
    refine ⟨hnamed, ?_, ?_, ?_⟩
    · rintro w files rfl
      exact Dependency.Walker.walk_of_isNamed w.maxDepth hnamed
    · rintro i kind shipped rfl
      exact i.onEvent_of_isNamed kind shipped hnamed
    · rintro hdirectory s q rfl rfl
      exact s.judge_of_leadsToTarget ⟨hdirectory, hnamed⟩

/-- A walker whose lister knows nothing, for a target that is a file name. -/
def deafWalker : Dependency.Walker := ⟨fun p => .error (.lister p "no report"), "libstdc++.so.6", 4⟩

/-- Files that are all there, and of which none can be read. -/
def lockedFiles : Files := ⟨fun _ => true, fun _ => true, fun _ => .error .notPermitted⟩

/-- The directory of a candidate is written with points, and another path has slashes and a point behind the name. A selection
that takes the candidate's version for `0.0.0` does not accept it, from whichever part of the search it comes. -/
theorem located_isNamed_dottedDirectory :
    let name := "libstdc++.so.6"
    let p : Path := ⟨"/app/bin/../lib/./libstdc++.so.6"⟩
    let s : ShippedLibrary := ⟨⟨"app/libstdc++.so.6"⟩, ⟨3, 4, 26⟩⟩
    let q (origin : SearchOrigin) : Inquiry := ⟨lockedFiles, p, origin, name, fun _ => pure .zero⟩
    Path.IsFileName name ∧ IsLocated name p ∧ p.hasDirectory = true ∧ Path.IsStripped "lib//libstdc++.so.6//./".toList
      "lib//libstdc++.so.6".toList ∧ (⟨"lib//libstdc++.so.6//./"⟩ : Path).isNamed name = true ∧
      deafWalker.dependsOnTarget lockedFiles p = pure true ∧ (s.judge (q .runPath)).value.1 = .reject ∧
      (s.judge (q .builtIn)).calls = [p] ∧ (s.judge (q .builtIn)).value.1 ≠ .accept := by
  intro name p s q
  have hname : Path.IsFileName name := by constructor <;> decide
  have hlisted : p ∈ SearchList.candidates ":$ORIGIN/../lib/./:/opt" ⟨"/app/bin"⟩ name := by decide +kernel
  have hdirectory : p.hasDirectory = true := by decide
  have hstripped : Path.IsStripped (⟨"lib//libstdc++.so.6//./"⟩ : Path).chars "lib//libstdc++.so.6".toList :=
    Path.isStripped_iff.2 (by decide)
  obtain ⟨hnames, hlocated⟩ := located_isNamed hname
  obtain ⟨-, hwalk, -, hselect⟩ := hlocated p (.candidate hlisted)
  obtain ⟨hcalls, haccept⟩ := (hselect hdirectory s (q .builtIn) rfl rfl).2 (by decide) rfl
  exact ⟨hname, .candidate hlisted, hdirectory, hstripped, ((hnames _).2 _ hstripped).2 (Or.inr ⟨"lib/".toList, by decide⟩),
    hwalk deafWalker lockedFiles rfl, (hselect hdirectory s (q .runPath) rfl rfl).1 rfl, hcalls, mt haccept.1 (by decide)⟩

end LibraryGuard
