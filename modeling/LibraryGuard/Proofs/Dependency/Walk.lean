import LibraryGuard.Dependency.Walk
import LibraryGuard.Proofs.Path.FileName

/-!
# What a walk answers, and whom it asks

A walk goes down by taking the target itself as the next file. If the target is a file name, this file has the target's name, so
the walk ends there; if it is not, no file has its name, and the walk finds nothing however deep it goes. So one report settles
the answer (`walk_value_iff`), it does not matter how deep the walk may go if it may go down at all, and the lister is asked
about one file at most, unless the target is no file name (`dependsOnTarget_answer_and_calls`).
-/

namespace LibraryGuard.Dependency.Walker

variable (w : Walker) (files : Files) (path : Path)

/-- There is a report about a file, and it has an edge with the target's name, or to a place with the target's name. -/
def ReportsTarget : Prop :=
  ∃ report, w.lister path = .ok report ∧
    ∃ e ∈ parseReport path report, e.name = w.target ∨ ∃ place, e.resolved = some place ∧ place.isNamed w.target = true

/-- A file leads to the target: it has the target's name, or, if the target has its own name and the walk may go down, the file
exists and the report about it has an edge to the target. -/
def LeadsToTarget (maxDepth : Nat) : Prop :=
  path.isNamed w.target = true ∨
    (⟨w.target⟩ : Path).isNamed w.target = true ∧ 1 ≤ maxDepth ∧ files.isPresent path = true ∧ w.ReportsTarget path

/-! ## One level of a walk -/

variable {w files path}

/-- An edge leads to a library by its name, or by the name of its place. -/
theorem leadsTo_iff (e : Edge) (target : String) :
    e.leadsTo target = true ↔ e.name = target ∨ ∃ place, e.resolved = some place ∧ place.isNamed target = true := by
  rw [Edge.leadsTo, Bool.or_eq_true, decide_eq_true_iff, Option.any_eq_true]

/-- Whether the report about a file has an edge to the target is seen from the edges of the file. -/
theorem reportsTarget_of_ok {edges : List Edge} (h : w.edges path = .ok edges) :
    w.ReportsTarget path ↔ edges.any (·.leadsTo w.target) = true := by
  unfold ReportsTarget
  simp only [Walker.edges, bind, Except.bind, pure, Except.pure] at h
  split at h
  · nomatch h
  · rename_i report hreport
    obtain rfl := Except.ok.inj h
    simp [hreport, leadsTo_iff]

/-- Without a report there is no edge. -/
theorem not_reportsTarget_of_error {e : GuardError} (h : w.edges path = .error e) : ¬ w.ReportsTarget path := by
  rintro ⟨report, hreport, -⟩
  simp [Walker.edges, hreport, bind, Except.bind, pure, Except.pure] at h

/-- A file with the target's name leads to it, and nobody is asked. -/
theorem walk_of_isNamed (levels : Nat) (h : path.isNamed w.target = true) : w.walk files levels path = pure true := by
  cases levels <;> simp [walk, h]

/-- If the report about a file has an edge to the target, the walk goes on one level down. -/
theorem walk_of_reportsTarget (levels : Nat) (h : path.isNamed w.target = false) (hpresent : files.isPresent path = true)
    (hreports : w.ReportsTarget path) :
    (w.walk files (levels + 1) path).value = (w.walk files levels ⟨w.target⟩).value ∧
      (w.walk files (levels + 1) path).calls = path :: (w.walk files levels ⟨w.target⟩).calls := by
  rw [walk]
  cases hedges : w.edges path with
  | error e => exact absurd hreports (not_reportsTarget_of_error hedges)
  | ok edges =>
    have hleads := (reportsTarget_of_ok hedges).1 hreports
    simp [h, hpresent, hleads]

/-- If it has none, or there is no report, the walk ends with the one question. -/
theorem walk_of_not_reportsTarget (levels : Nat) (h : path.isNamed w.target = false) (hpresent : files.isPresent path = true)
    (hreports : ¬ w.ReportsTarget path) :
    (w.walk files (levels + 1) path).value = false ∧ (w.walk files (levels + 1) path).calls = [path] := by
  rw [walk]
  cases hedges : w.edges path with
  | error e => simp [h, hpresent]
  | ok edges =>
    have hleads : edges.any (·.leadsTo w.target) = false := by
      rwa [reportsTarget_of_ok hedges, Bool.not_eq_true] at hreports
    simp [h, hpresent, hleads]

/-- One level of a walk: the file has the target's name, or it cannot be asked about, or its report is read, and the walk ends or
goes on below with the target. -/
theorem walk_cases (w : Walker) (files : Files) (levels : Nat) (path : Path) :
    (path.isNamed w.target = true ∧ w.walk files levels path = pure true) ∨
    (path.isNamed w.target = false ∧ (levels = 0 ∨ files.isPresent path = false) ∧ w.walk files levels path = pure false) ∨
    (path.isNamed w.target = false ∧ files.isPresent path = true ∧ ¬ w.ReportsTarget path ∧ levels ≠ 0 ∧
      (w.walk files levels path).value = false ∧ (w.walk files levels path).calls = [path]) ∨
    (path.isNamed w.target = false ∧ files.isPresent path = true ∧ w.ReportsTarget path ∧ ∃ below, levels = below + 1 ∧
      (w.walk files levels path).value = (w.walk files below ⟨w.target⟩).value ∧
        (w.walk files levels path).calls = path :: (w.walk files below ⟨w.target⟩).calls) := by
  cases hnamed : path.isNamed w.target with
  | true => exact Or.inl ⟨rfl, walk_of_isNamed levels hnamed⟩
  | false =>
    refine Or.inr ?_
    cases levels with
    | zero => exact Or.inl ⟨rfl, Or.inl rfl, by simp [walk, hnamed]⟩
    | succ below =>
      cases hpresent : files.isPresent path with
      | false => exact Or.inl ⟨rfl, Or.inr rfl, by simp [walk, hnamed, hpresent]⟩
      | true =>
        refine Or.inr ?_
        by_cases hreports : w.ReportsTarget path
        · exact Or.inr ⟨rfl, rfl, hreports, below, rfl, walk_of_reportsTarget below hnamed hpresent hreports⟩
        · exact Or.inl ⟨rfl, rfl, hreports, Nat.succ_ne_zero below, walk_of_not_reportsTarget below hnamed hpresent hreports⟩

/-! ## A whole walk -/

/-- A walk finds what the closed form says. -/
theorem walk_value_iff (w : Walker) (files : Files) (levels : Nat) (path : Path) :
    (w.walk files levels path).value = true ↔ w.LeadsToTarget files path levels := by
  unfold LeadsToTarget
  induction levels generalizing path with
  | zero =>
    rcases walk_cases w files 0 path with ⟨hnamed, hwalk⟩ | ⟨hnamed, -, hwalk⟩ | ⟨-, -, -, hlevels, -⟩ | ⟨-, -, -, _, hlevels, -⟩
    · simp [hwalk, hnamed]
    · simp [hwalk, hnamed]
    · exact absurd rfl hlevels
    · nomatch hlevels
  | succ levels ih =>
    rcases walk_cases w files (levels + 1) path with
      ⟨hnamed, hwalk⟩ | ⟨hnamed, hend | hmissing, hwalk⟩ | ⟨hnamed, -, hreports, -, hvalue, -⟩ |
        ⟨hnamed, hpresent, hreports, below, heq, hvalue, -⟩
    · simp [hwalk, hnamed]
    · nomatch hend
    · simp [hwalk, hnamed, hmissing]
    · simp [hvalue, hnamed, hreports]
    · obtain rfl := Nat.succ.inj heq
      rw [hvalue, ih, hnamed]
      -- Below, the target leads to itself by its name or not at all.
      constructor
      · rintro (hself | ⟨hself, -⟩)
        all_goals exact Or.inr ⟨hself, by omega, hpresent, hreports⟩
      · rintro (hno | ⟨hself, -⟩)
        · nomatch hno
        · exact Or.inl hself

/-- Every question takes the walk one level down. -/
theorem length_walk_calls_le (w : Walker) (files : Files) (levels : Nat) (path : Path) :
    (w.walk files levels path).calls.length ≤ levels := by
  induction levels generalizing path with
  | zero =>
    rcases walk_cases w files 0 path with ⟨-, hwalk⟩ | ⟨-, -, hwalk⟩ | ⟨-, -, -, hlevels, -⟩ | ⟨-, -, -, _, hlevels, -⟩
    · simp [hwalk]
    · simp [hwalk]
    · exact absurd rfl hlevels
    · nomatch hlevels
  | succ levels ih =>
    rcases walk_cases w files (levels + 1) path with
      ⟨-, hwalk⟩ | ⟨-, -, hwalk⟩ | ⟨-, -, -, -, -, hcalls⟩ | ⟨-, -, -, below, heq, -, hcalls⟩
    · simp [hwalk]
    · simp [hwalk]
    · simp [hcalls]
    · obtain rfl := Nat.succ.inj heq
      rw [hcalls, List.length_cons]
      exact Nat.succ_le_succ (ih _)

/-- Nobody is asked about a file that has the target's name, or that does not exist, nor if the walk may not go down. -/
theorem walk_calls_eq_nil {levels : Nat} (h : path.isNamed w.target = true ∨ levels = 0 ∨ files.isPresent path = false) :
    (w.walk files levels path).calls = [] := by
  rcases walk_cases w files levels path with
    ⟨-, hwalk⟩ | ⟨-, -, hwalk⟩ | ⟨hnamed, hpresent, -, hlevels, -⟩ | ⟨hnamed, hpresent, -, below, heq, -⟩
  · simp [hwalk]
  · simp [hwalk]
  · simp [hnamed, hpresent, hlevels] at h
  · simp [hnamed, hpresent, heq] at h

/-- If the target is a file name, the lister is asked once at most, and about the file itself. -/
theorem walk_calls_of_isFileName (htarget : Path.IsFileName w.target) (files : Files) (levels : Nat) (path : Path) :
    (w.walk files levels path).calls = [] ∨ (w.walk files levels path).calls = [path] := by
  rcases walk_cases w files levels path with
    ⟨-, hwalk⟩ | ⟨-, -, hwalk⟩ | ⟨-, -, -, -, -, hcalls⟩ | ⟨-, -, -, below, -, -, hcalls⟩
  · simp [hwalk]
  · simp [hwalk]
  · exact Or.inr hcalls
  · rw [walk_of_isNamed below ((Path.isNamed_self_iff w.target).2 htarget)] at hcalls
    exact Or.inr hcalls

/-- What a walk answers, and whom it asks. A file leads to the target exactly as the closed form says. The lister is asked at most
as often as the walk may go down, and not at all about a file that has the target's name or does not exist, nor if the walk may
not go down. If the target is a file name, the lister is asked about the file itself at most, and once at most, and the answer is
the same however deep the walk may go, if it may go down at all. If the target is no file name, nothing leads to it. -/
theorem dependsOnTarget_answer_and_calls (w : Walker) (files : Files) (path : Path) :
    let answer := w.dependsOnTarget files path
    (answer.value = true ↔ w.LeadsToTarget files path w.maxDepth) ∧
      answer.calls.length ≤ w.maxDepth ∧
      (path.isNamed w.target = true ∨ w.maxDepth = 0 ∨ files.isPresent path = false → answer.calls = []) ∧
      (Path.IsFileName w.target →
        (answer.calls = [] ∨ answer.calls = [path]) ∧
          ∀ depth, 1 ≤ depth → 1 ≤ w.maxDepth →
            ({ w with maxDepth := depth }.dependsOnTarget files path).value = answer.value) ∧
      (¬ Path.IsFileName w.target → answer.value = false) := by
  intro answer
  have hvalue : answer.value = true ↔ w.LeadsToTarget files path w.maxDepth := walk_value_iff w files w.maxDepth path
  refine ⟨hvalue, length_walk_calls_le w files w.maxDepth path, walk_calls_eq_nil,
    fun htarget => ⟨walk_calls_of_isFileName htarget files w.maxDepth path, fun depth hdepth hmax => ?_⟩, fun htarget => ?_⟩
  · -- The closed form reads the depth only to compare it with one.
    have hdeeper : ({ w with maxDepth := depth }.dependsOnTarget files path).value = true ↔
        w.LeadsToTarget files path depth := walk_value_iff { w with maxDepth := depth } files depth path
    rw [Bool.eq_iff_iff, hdeeper, hvalue]
    simp only [LeadsToTarget, hdepth, hmax]
  · rw [Bool.eq_false_iff, Ne, hvalue]
    rintro (hnamed | ⟨hnamed, -⟩)
    all_goals exact htarget (Path.isFileName_of_isNamed hnamed)

end LibraryGuard.Dependency.Walker
