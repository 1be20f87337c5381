import LibraryGuard.Proofs.Guard.Run

/-!
# Which call of a run returns an outcome

A host gives events to hooks that share a guard, and may disarm the guard itself, one call after the other (`GuardUse.run`).
An outcome is no sign that its call has spent the guard: a dependency check that breaks off is answered with an outcome too,
and leaves the guard armed for the next call, so that a run may return several (`outcome_without_spending`). Such calls apart,
at most one call of a run returns an outcome, and it is the one that has spent the guard (`outcome_once_unless_breaksOff`).
-/

namespace LibraryGuard

open Interleaving (Task)

/-- One use that a host makes of a guard: what for, the guard before and after it, and the outcome that it returns. -/
structure GuardUse where
  task : Task
  before : GuardState
  after : GuardState
  outcome : Option Outcome

namespace GuardUse

/-- The use of a guard for a task. The host is given no outcome when it disarms the guard. -/
def of (task : Task) (s : GuardState) : GuardUse :=
  match task with
  | .handle i e => ⟨task, s, (i.onEvent s e).value.2, (i.onEvent s e).value.1⟩
  | .disarm => ⟨task, s, s.disarm.2, none⟩

/-- Uses a guard for one task after the other. -/
def run : List Task → GuardState → List GuardUse
  | [], _ => []
  | task :: rest, s => of task s :: run rest (of task s).after

/-- The guard was armed before this use, and is not armed after it. -/
def Spends (u : GuardUse) : Prop := u.before.armed = true ∧ u.after.armed = false

instance (u : GuardUse) : Decidable u.Spends := inferInstanceAs (Decidable (_ ∧ _))

/-- An armed guard asks the dependency check in this use, and the check breaks off. -/
def checkBreaksOff (u : GuardUse) : Bool :=
  match u.task with
  | .handle i e => u.before.armed && (Delivery.mk i e).breaksOff
  | .disarm => false

/-! ## One use -/

variable (task : Task) (s : GuardState)

@[simp] theorem of_before : (of task s).before = s := by cases task <;> rfl

/-- A guard that is not armed stays so, and returns no outcome. -/
theorem of_disarmed (h : s.armed = false) : (of task s).after = s ∧ (of task s).outcome = none := by
  obtain ⟨shipped, armed⟩ := s
  obtain rfl : armed = false := h
  cases task with
  | handle i e => simp [of, Interceptor.onEvent_disarmed]
  | disarm => exact ⟨rfl, rfl⟩

/-- A check of which a path would bind the target has not broken off. -/
theorem not_breaksOff_of_binds {d : Delivery} (h : d.Binds) : d.breaksOff = false := by
  obtain ⟨path, hp, hb⟩ := h
  obtain ⟨-, -, hoff⟩ := d.qualifies_calls_and_warnings hp
  rw [(d.hook.qualifies_iff_binds path).2 hb] at hoff
  simpa using hoff

/-- No use arms a guard. -/
theorem after_disarmed (h : s.armed = false) : (of task s).after.armed = false := by
  rw [(of_disarmed task s h).1, h]

/-- A use ends in one of three ways: without an outcome, and then only a host's disarming has spent the guard; with no decision
and the guard still armed, because the check has broken off; or with the guard spent and an outcome. -/
theorem of_cases :
    let u := of task s
    u.checkBreaksOff = false ∧ u.outcome = none ∧ (u.Spends → u.task = .disarm) ∨
      u.checkBreaksOff = true ∧ u.outcome = some .indeterminate ∧ u.after = u.before ∧ u.before.armed = true ∨
      u.checkBreaksOff = false ∧ u.outcome.isSome = true ∧ u.Spends := by
  intro u
  obtain ⟨shipped, armed⟩ := s
  cases task with
  | disarm => exact Or.inl ⟨rfl, rfl, fun _ => rfl⟩
  | handle i e =>
    cases armed with
    | false =>
      obtain ⟨-, hnone⟩ := of_disarmed (.handle i e) ⟨shipped, false⟩ rfl
      exact Or.inl ⟨rfl, hnone, fun hs => absurd hs.1 nofun⟩
    | true =>
      by_cases hb : (Delivery.mk i e).Binds
      · have hstrike := (Delivery.mk i e).onEvent_of_binds shipped hb
        have hoff := not_breaksOff_of_binds hb
        exact Or.inr (Or.inr (by simp [u, of, Spends, checkBreaksOff, hstrike, hoff]))
      · have hquiet := (Delivery.mk i e).onEvent_of_not_binds shipped hb
        cases hoff : (Delivery.mk i e).breaksOff with
        | true => exact Or.inr (Or.inl (by simp [u, of, checkBreaksOff, hquiet, hoff, Delivery.quietOutcome]))
        | false => exact Or.inl (by simp [u, of, Spends, checkBreaksOff, hquiet, hoff, Delivery.quietOutcome])

/-! ## One use after the other -/

/-- A guard that is not armed is not spent in a run. -/
theorem countP_spends_of_disarmed (tasks : List Task) {s : GuardState} (h : s.armed = false) :
    (run tasks s).countP (·.Spends) = 0 := by
  induction tasks generalizing s with
  | nil => rfl
  | cons task rest ih =>
    have hnot : ¬ (of task s).Spends := by
      rintro ⟨hbefore, -⟩
      rw [of_before, h] at hbefore
      nomatch hbefore
    rw [run, List.countP_cons_of_neg (by simpa using hnot), ih (after_disarmed task s h)]

/-- A guard is spent at most once in a run. -/
theorem countP_spends_le_one (tasks : List Task) (s : GuardState) : (run tasks s).countP (·.Spends) ≤ 1 := by
  induction tasks generalizing s with
  | nil => exact Nat.zero_le 1
  | cons task rest ih =>
    rw [run]
    by_cases hs : (of task s).Spends
    · have hnone := countP_spends_of_disarmed rest hs.2
      rw [List.countP_cons_of_pos (by simpa using hs)]
      omega
    · rw [List.countP_cons_of_neg (by simpa using hs)]
      exact ih (of task s).after

/-- Every use in a run is that of some guard for some task. -/
theorem exists_of_mem_run {tasks : List Task} {s : GuardState} {u : GuardUse} (h : u ∈ run tasks s) :
    ∃ task s', u = of task s' := by
  induction tasks generalizing s with
  | nil => nomatch h
  | cons task rest ih =>
    rcases List.mem_cons.1 h with rfl | hrest
    · exact ⟨task, s, rfl⟩
    · exact ih hrest

/-- Of the uses in a run in which no check breaks off, at most one returns an outcome, and it is the one that spends the guard.
A use in which the check breaks off returns no decision, and leaves the guard armed. A hook that spends the guard returns an
outcome. -/
theorem outcome_once_unless_breaksOff (tasks : List Task) (s : GuardState) :
    (run tasks s).countP (fun u => u.outcome.isSome && !u.checkBreaksOff) ≤ 1 ∧
      ∀ u ∈ run tasks s,
        (u.outcome.isSome = true → u.checkBreaksOff = false → u.Spends) ∧
          (u.checkBreaksOff = true → u.outcome = some .indeterminate ∧ u.after = u.before ∧ u.before.armed = true) ∧
          (u.Spends → u.task ≠ .disarm → u.outcome.isSome = true) := by
  have hspends : ∀ u ∈ run tasks s, u.outcome.isSome = true → u.checkBreaksOff = false → u.Spends := by
    intro u hu hsome hoff
    obtain ⟨task, s', rfl⟩ := exists_of_mem_run hu
    rcases of_cases task s' with ⟨-, hnone, -⟩ | ⟨hon, -⟩ | ⟨-, -, hs⟩
    · simp [hnone] at hsome
    · simp [hon] at hoff
    · exact hs
  refine ⟨?_, fun u hu => ⟨hspends u hu, ?_⟩⟩
  · calc (run tasks s).countP (fun u => u.outcome.isSome && !u.checkBreaksOff)
        ≤ (run tasks s).countP (·.Spends) := by
          refine List.countP_mono_left fun u hu h => ?_
          obtain ⟨hsome, hoff⟩ : u.outcome.isSome = true ∧ u.checkBreaksOff = false := by simpa using h
          exact decide_eq_true (hspends u hu hsome hoff)
      _ ≤ 1 := countP_spends_le_one tasks s
  · obtain ⟨task, s', rfl⟩ := exists_of_mem_run hu
    rcases of_cases task s' with ⟨hoff, -, hdisarm⟩ | ⟨-, hundecided, hafter, harmed⟩ | ⟨hoff, hsome, -⟩
    · exact ⟨fun hon => absurd (hoff.symm.trans hon) (by decide), fun hs hhook => absurd (hdisarm hs) hhook⟩
    · exact ⟨fun _ => ⟨hundecided, hafter, harmed⟩, fun _ _ => Option.isSome_of_eq_some hundecided⟩
    · exact ⟨fun hon => absurd (hoff.symm.trans hon) (by decide), fun _ _ => hsome⟩

/-! ## Outcomes of a guard that stays armed -/

/-- A hook whose dependency check always breaks off. -/
def brokenCheck : Interceptor where
  target := "libstdc++.so.6"
  check _ := return none
  reconcile _ := return some .indeterminate

/-- Two loads of a shared object. -/
def twoLoads : List Task := List.replicate 2 (.handle brokenCheck ⟨.load, some ⟨"/opt/app/lib/libext.so"⟩⟩)

/-- More than one call of a run may return an outcome, and none of them need spend the guard: the dependency check breaks off
in each. -/
theorem outcome_without_spending :
    ¬ ∀ (tasks : List Task) (s : GuardState),
      (run tasks s).countP (·.outcome.isSome) ≤ 1 ∧ ∀ u ∈ run tasks s, u.outcome.isSome = true → u.Spends := by
  intro h
  obtain ⟨honce, -⟩ := h twoLoads ⟨⟨"/opt/app/lib/libstdc++.so.6"⟩, true⟩
  exact absurd honce (by decide)

end GuardUse

end LibraryGuard
