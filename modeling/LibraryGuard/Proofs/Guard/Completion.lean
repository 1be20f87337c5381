import LibraryGuard.Proofs.Guard.Run

/-!
# Whether the reconciliation is over when a call returns

The guard is disarmed before the reconciliation begins, and a thread that finds it disarmed does not wait for the one that
reconciles. So a call for an event that would bind the target may return too early (`returned_before_end`). What is left is
`returned_of_binds_ended_or_underway`: when such a call has returned, the reconciliation is over, or the call had no outcome and
another thread, the one that disarmed the guard, is still at it. It is over if the call had an outcome, and if no other call is
under way.
-/

namespace LibraryGuard.Interleaving

/-- The outcome that a thread returns, or has returned. -/
def Stage.outcome? : Stage → Option Outcome
  | .handled outcome | .returned outcome => outcome
  | _ => none

/-- The outcome of an event that would bind the target comes from a reconciliation. -/
theorem Moves.reconciled_of_outcome {task : Task} {armed armed' : Bool} {s s' : Stage} (h : Moves task s armed s' armed')
    (hf : Fits task armed s) (hb : task.Binds) (ho : s'.outcome?.isSome = true) :
    s = .reconciling ∨ s.outcome?.isSome = true := by
  cases h with
  | letsGo outcome hnot =>
    obtain ⟨i, e, heq, hp⟩ := hf
    obtain ⟨rfl, rfl⟩ := Task.handle.inj heq
    obtain ⟨path, hpath, hb⟩ := hb
    obtain rfl := Option.some.inj (hp.symm.trans hpath)
    exact absurd hb hnot
  | ends outcome => exact Or.inl rfl
  | returns => exact Or.inr ho
  | _ => nomatch ho

theorem advance_ended (w : World) (place : Nat) (t : Thread) (armed : Bool) (stage : Stage) :
    (w.advance place t armed stage).ended = w.ended + tally (t.stage = .reconciling) := by
  simp only [World.advance, tally]
  split <;> rfl

/-- What is known of the end of a reconciliation. -/
structure Timely (w : World) : Prop where
  /-- A reconciliation that was begun is over, or a thread is at it. -/
  ends : w.begun = w.ended + w.count .reconciling
  /-- Whoever has an outcome for an event that would bind the target has reconciled. -/
  tells : ∀ t ∈ w.threads, t.task.Binds → t.stage.outcome?.isSome = true → 1 ≤ w.ended

/-- Threads that have not begun. -/
theorem timely_initial (tasks : List Task) : Timely (World.initial tasks) where
  ends := by simp [World.initial, World.count, List.countP_map, Function.comp_def]
  tells := by
    intro t ht _ ho
    obtain ⟨task, -, rfl⟩ := List.mem_map.1 ht
    exact absurd ho Bool.false_ne_true

/-- A step keeps it. -/
theorem Timely.step {tasks : List Task} {shipped : Path} {w w' : World} (h : Timely w) (hsound : Sound tasks w)
    (hs : Step shipped w w') : Timely w' := by
  obtain ⟨hthere, hnext⟩ := hs
  rename_i place t armed stage
  have hm := moves_of_next hnext
  have ht : t ∈ w.threads := List.mem_of_getElem? hthere
  refine ⟨?_, ?_⟩
  -- The thread that moves enters the reconciliation where one is begun, and leaves it where one is ended.
  · have hw := h.ends
    have hcount := count_advance hthere armed stage .reconciling
    rw [advance_begun, advance_ended]
    omega
  · intro t' ht' hb ho
    rw [advance_ended]
    rcases List.mem_or_eq_of_mem_set ht' with ht' | rfl
    · exact Nat.le_add_right_of_le (h.tells t' ht' hb ho)
    · rcases hm.reconciled_of_outcome (hsound.fits t ht) hb ho with hrec | hbefore
      · simp [tally, hrec]
      · exact Nat.le_add_right_of_le (h.tells t ht hb hbefore)

/-- It holds of every world that threads can come to. -/
theorem Reachable.timely {tasks : List Task} {shipped : Path} {w : World} (h : Reachable shipped tasks w) : Timely w := by
  induction h with
  | initial => exact timely_initial tasks
  | step hw hs ih => exact ih.step hw.sound hs

/-- No thread has told the host whether it disarmed the guard when none was told to disarm it. -/
theorem Sound.count_disarmed {tasks : List Task} {w : World} (h : Sound tasks w) (hall : ∀ task ∈ tasks, task ≠ .disarm) :
    w.count (.disarmed true) = 0 := by
  refine List.countP_eq_zero.2 fun t ht hstage => ?_
  have hf := h.fits t ht
  rw [of_decide_eq_true hstage] at hf
  exact hall t.task (h.keeps ▸ List.mem_map_of_mem ht) hf.1

/-- Where no thread was told to disarm the guard, a guard that is not armed has been reconciled, or is about to be, or is being
reconciled. -/
theorem Reachable.ended_of_disarmed {tasks : List Task} {shipped : Path} {w : World} (h : Reachable shipped tasks w)
    (hall : ∀ task ∈ tasks, task ≠ .disarm) (ha : w.armed = false) :
    w.ended + w.count .reconciling + w.count .struck = 1 := by
  have hstrikes : w.struck = 1 := by rw [h.sound.strikes, ha]; rfl
  have hnone := h.sound.count_disarmed hall
  have hbegins := h.sound.begins
  have hends := h.timely.ends
  omega

/-- Some thread is at a stage that is counted. -/
theorem World.exists_of_count {w : World} {s : Stage} (h : 0 < w.count s) : ∃ t ∈ w.threads, t.stage = s := by
  obtain ⟨t, ht, hstage⟩ := List.countP_pos_iff.1 h
  exact ⟨t, ht, of_decide_eq_true hstage⟩

/-! ## A call that returns too early -/

/-- A thread may disarm the guard and stop there. Another one then finds the guard disarmed, and returns before the
reconciliation has begun. -/
theorem exists_early_return (shipped : Path) {d₁ : Delivery} (d₂ : Delivery) (h : d₁.Binds) :
    ∃ w, Reachable shipped [d₁.task, d₂.task] w ∧ w.threads = [⟨d₁.task, .struck⟩, ⟨d₂.task, .returned none⟩] ∧ w.ended = 0 := by
  have hinitial : Reachable shipped [d₁.task, d₂.task] (.initial [d₁.task, d₂.task]) := .initial
  have hfirst : (World.initial [d₁.task, d₂.task]).threads[0]? = some ⟨d₁.task, .begun⟩ := rfl
  -- The first thread goes as far as disarming the guard; the second one then runs to its end.
  obtain ⟨w₁, hw₁, ha₁, ht₁⟩ := hinitial.alone hfirst (alone_strikes d₁ shipped h)
  have hsecond : w₁.threads[1]? = some ⟨d₂.task, .begun⟩ := by rw [ht₁]; rfl
  obtain ⟨w₂, hw₂, ha₂, ht₂⟩ := hw₁.alone hsecond (alone_onEvent d₂ shipped w₁.armed)
  rw [ha₁, Interceptor.onEvent_disarmed] at ha₂ ht₂
  have hthreads : w₂.threads = [⟨d₁.task, .struck⟩, ⟨d₂.task, .returned none⟩] := by rw [ht₂, ht₁]; rfl
  have hall : ∀ task ∈ [d₁.task, d₂.task], task ≠ .disarm := by simp [Delivery.task]
  have hsum := hw₂.ended_of_disarmed hall ha₂
  have hstruck : w₂.count .struck = 1 := by rw [World.count, hthreads]; rfl
  exact ⟨w₂, hw₂, hthreads, by omega⟩

/-- A hook of which neither the dependency check nor the reconciliation ever breaks off, and a load of the target. -/
def calmLoad : Delivery where
  hook := { target := "libstdc++.so.6", check := fun _ => return some false, reconcile := fun _ => return some .indeterminate }
  event := ⟨.load, some ⟨"/usr/lib/libstdc++.so.6"⟩⟩

theorem calmLoad_binds : calmLoad.Binds := ⟨_, rfl, Or.inl (by decide)⟩

/-- A call for an event that would bind the target may return while the reconciliation is not over, even if no thread was told
to disarm the guard and nothing breaks off. -/
theorem returned_before_end :
    ¬ ∀ (shipped : Path) (tasks : List Task), (∀ task ∈ tasks, task ≠ .disarm) →
      (∀ i e, Task.handle i e ∈ tasks →
        (∀ path, (i.check path).value.isSome = true) ∧ (i.reconcile shipped).value.isSome = true) →
      ∀ w, Reachable shipped tasks w → ∀ t ∈ w.threads, t.task.Binds →
        ∀ outcome, t.stage = .returned outcome → w.ended = 1 := by
  intro hclaim
  obtain ⟨w, hw, hthreads, hnot⟩ := exists_early_return ⟨"/opt/app/lib/libstdc++.so.6"⟩ calmLoad calmLoad_binds
  have hall : ∀ task ∈ [calmLoad.task, calmLoad.task], task ≠ .disarm := by simp [Delivery.task]
  have hcalm : ∀ i e, Task.handle i e ∈ [calmLoad.task, calmLoad.task] →
      (∀ path, (i.check path).value.isSome = true) ∧
        (i.reconcile ⟨"/opt/app/lib/libstdc++.so.6"⟩).value.isSome = true := by
    intro i e hmem
    obtain ⟨rfl, rfl⟩ : i = calmLoad.hook ∧ e = calmLoad.event := by simpa [Delivery.task] using hmem
    exact ⟨fun _ => rfl, rfl⟩
  have hended := hclaim _ _ hall hcalm w hw ⟨calmLoad.task, .returned none⟩ (by simp [hthreads]) calmLoad_binds none rfl
  omega

/-- When a call for an event that would bind the target has returned, and no thread was told to disarm the guard, the guard is
disarmed, and the one reconciliation is over, unless the call had no outcome and another thread has disarmed the guard and is
about to reconcile or still at it. When no other call is under way, the reconciliation is over. -/
theorem returned_of_binds_ended_or_underway {shipped : Path} {tasks : List Task} {w : World} {t : Thread}
    {outcome : Option Outcome} (hall : ∀ task ∈ tasks, task ≠ .disarm) (h : Reachable shipped tasks w) (ht : t ∈ w.threads)
    (hb : t.task.Binds) (hreturned : t.stage = .returned outcome) :
    w.armed = false ∧
      (w.begun = 1 ∧ w.ended = 1 ∨
        outcome = none ∧ w.ended = 0 ∧ ∃ t' ∈ w.threads, t'.stage = .struck ∨ t'.stage = .reconciling) ∧
      ((∀ t' ∈ w.threads, t'.stage = .begun ∨ ∃ outcome', t'.stage = .returned outcome') → w.begun = 1 ∧ w.ended = 1) := by
  have hfits := h.sound.fits t ht
  rw [hreturned] at hfits
  have harmed : w.armed = false := Bool.eq_false_iff.2 fun ha => hfits ha hb
  have hsum := h.ended_of_disarmed hall harmed
  have hends := h.timely.ends
  have hover : w.begun = 1 ∧ w.ended = 1 ∨
      outcome = none ∧ w.ended = 0 ∧ ∃ t' ∈ w.threads, t'.stage = .struck ∨ t'.stage = .reconciling := by
    by_cases hzero : w.ended = 0
    · refine Or.inr ⟨?_, hzero, ?_⟩
      · have htells := h.timely.tells t ht hb
        rw [hreturned, hzero] at htells
        simpa [Stage.outcome?] using htells
      · rcases Nat.eq_zero_or_pos (w.count .struck) with hnone | hstruck
        · obtain ⟨t', ht', hstage⟩ := World.exists_of_count (w := w) (s := .reconciling) (by omega)
          exact ⟨t', ht', Or.inr hstage⟩
        · obtain ⟨t', ht', hstage⟩ := World.exists_of_count hstruck
          exact ⟨t', ht', Or.inl hstage⟩
    · exact Or.inl (by omega)
  refine ⟨harmed, hover, fun hothers => ?_⟩
  rcases hover with hover | ⟨-, -, t', ht', hstage⟩
  · exact hover
  · rcases hothers t' ht' with hbegun | ⟨outcome', hdone⟩
    · rw [hbegun] at hstage
      simp at hstage
    · rw [hdone] at hstage
      simp at hstage

/-- Two threads load the target, and the second returns while the first, which has disarmed the guard, is about to reconcile. -/
theorem returned_calmLoad :
    ∃ w, Reachable ⟨"/opt/app/lib/libstdc++.so.6"⟩ [calmLoad.task, calmLoad.task] w ∧
      (⟨calmLoad.task, .returned none⟩ : Thread) ∈ w.threads ∧ calmLoad.task.Binds ∧ w.armed = false ∧ w.ended = 0 ∧
        ∃ t ∈ w.threads, t.stage = .struck ∨ t.stage = .reconciling := by
  obtain ⟨w, hw, hthreads, hended⟩ := exists_early_return ⟨"/opt/app/lib/libstdc++.so.6"⟩ calmLoad calmLoad_binds
  have ht : (⟨calmLoad.task, .returned none⟩ : Thread) ∈ w.threads := by simp [hthreads]
  obtain ⟨harmed, hover, -⟩ := returned_of_binds_ended_or_underway (by simp [Delivery.task]) hw ht calmLoad_binds rfl
  rcases hover with ⟨-, hone⟩ | ⟨-, -, hother⟩
  · omega
  · exact ⟨w, hw, ht, calmLoad_binds, harmed, hended, hother⟩

end LibraryGuard.Interleaving
