import LibraryGuard.Guard.Interleaving

/-!
# The guard strikes once, in whatever order threads run

`Moves` says once what a thread's step can do, and everything else here is derived from it. `Sound` is the invariant of the
worlds that threads can come to: it ties the guard's flag to the count of those who found it armed, that count to the
reconciliations begun and still to come, and the flag to how far each thread is. So there is one reconciliation at most, and
when all threads are done there was one exactly if one of the events would bind the target (`reconciled_once`).
-/

namespace LibraryGuard

/-- A path would bind the target: it has the target's name, or it is a shared object of which the check says so. -/
def Interceptor.Binds (i : Interceptor) (path : Path) : Prop :=
  path.isNamed i.target = true ∨ path.extension? = some "so" ∧ (i.check path).value = some true

/-- The check is asked about a shared object of another name than the target's, and about nothing else. -/
theorem Interceptor.qualifies_eq (i : Interceptor) (path : Path) :
    i.qualifies path =
      if path.isNamed i.target then ⟨some true, [], []⟩
      else if path.extension? = some "so" then
        ⟨(i.check path).value, .check path :: (i.check path).calls, (i.check path).warnings⟩
      else ⟨some false, [], []⟩ := by
  unfold qualifies
  split
  · rfl
  · split
    · rfl
    · rfl

/-- A path qualifies exactly when it would bind the target. -/
theorem Interceptor.qualifies_iff_binds (i : Interceptor) (path : Path) :
    (i.qualifies path).value = some true ↔ i.Binds path := by
  rw [qualifies_eq, Binds]
  by_cases hn : path.isNamed i.target = true
  · simp [hn]
  · by_cases he : path.extension? = some "so" <;> simp [hn, he]

namespace Interleaving

/-- The thread's event would bind the target. -/
def Task.Binds : Task → Prop
  | .handle i e => ∃ path, e.path = some path ∧ i.Binds path
  | .disarm => False

/-! ## What a step can do -/

/-- What a step makes of a thread's stage and of the guard, which is armed or not before and after it. -/
inductive Moves : Task → Stage → Bool → Stage → Bool → Prop where
  | looks {i : Interceptor} {e : LoadEvent} {path : Path} (h : e.path = some path) :
      Moves (.handle i e) .begun true (.qualifying path) true
  | passes {i : Interceptor} {e : LoadEvent} {armed : Bool} (h : armed = true → e.path = none) :
      Moves (.handle i e) .begun armed (.handled none) armed
  | binds {i : Interceptor} {e : LoadEvent} {path : Path} {armed : Bool} (h : i.Binds path) :
      Moves (.handle i e) (.qualifying path) armed (.striking path) armed
  | letsGo {i : Interceptor} {e : LoadEvent} {path : Path} {armed : Bool} (outcome : Option Outcome)
      (h : ¬ i.Binds path) : Moves (.handle i e) (.qualifying path) armed (.handled outcome) armed
  | strikes {i : Interceptor} {e : LoadEvent} {path : Path} : Moves (.handle i e) (.striking path) true .struck false
  | misses {i : Interceptor} {e : LoadEvent} {path : Path} :
      Moves (.handle i e) (.striking path) false (.handled none) false
  | begins {i : Interceptor} {e : LoadEvent} {armed : Bool} : Moves (.handle i e) .struck armed .reconciling armed
  | ends {i : Interceptor} {e : LoadEvent} {armed : Bool} (outcome : Outcome) :
      Moves (.handle i e) .reconciling armed (.handled (some outcome)) armed
  | returns {i : Interceptor} {e : LoadEvent} {armed : Bool} {outcome : Option Outcome} :
      Moves (.handle i e) (.handled outcome) armed (.returned outcome) armed
  | disarms {armed : Bool} : Moves .disarm .begun armed (.disarmed armed) false

/-- A thread's next step is one of these. -/
theorem moves_of_next {t : Thread} {shipped : Path} {armed armed' : Bool} {stage : Stage}
    (h : t.next shipped armed = some (armed', stage)) : Moves t.task t.stage armed stage armed' := by
  obtain ⟨task, s⟩ := t
  cases task with
  | disarm =>
    cases s <;> simp only [Thread.next, Option.some.injEq, Prod.mk.injEq, reduceCtorEq] at h
    obtain ⟨rfl, rfl⟩ := h
    exact .disarms
  | handle i e =>
    cases s with
    | begun =>
      cases armed with
      | false =>
        simp only [Thread.next, Option.some.injEq, Prod.mk.injEq] at h
        obtain ⟨rfl, rfl⟩ := h
        exact .passes nofun
      | true =>
        cases hp : e.path with
        | none =>
          simp only [Thread.next, hp, Option.some.injEq, Prod.mk.injEq] at h
          obtain ⟨rfl, rfl⟩ := h
          exact .passes fun _ => hp
        | some path =>
          simp only [Thread.next, hp, Option.some.injEq, Prod.mk.injEq] at h
          obtain ⟨rfl, rfl⟩ := h
          exact .looks hp
    | qualifying path =>
      have hb := i.qualifies_iff_binds path
      simp only [Thread.next] at h
      split at h
      all_goals
        rename_i hq
        simp only [Option.some.injEq, Prod.mk.injEq] at h
        obtain ⟨rfl, rfl⟩ := h
      · exact .letsGo _ (by rw [← hb, hq]; simp)
      · exact .letsGo _ (by rw [← hb, hq]; simp)
      · exact .binds (hb.1 hq)
    | striking path =>
      simp only [Thread.next, Option.some.injEq, Prod.mk.injEq] at h
      obtain ⟨rfl, rfl⟩ := h
      cases armed with
      | true => exact .strikes
      | false => exact .misses
    | struck =>
      simp only [Thread.next, Option.some.injEq, Prod.mk.injEq] at h
      obtain ⟨rfl, rfl⟩ := h
      exact .begins
    | reconciling =>
      simp only [Thread.next, Option.some.injEq, Prod.mk.injEq] at h
      obtain ⟨rfl, rfl⟩ := h
      exact .ends _
    | handled outcome =>
      simp only [Thread.next, Option.some.injEq, Prod.mk.injEq] at h
      obtain ⟨rfl, rfl⟩ := h
      exact .returns
    | returned outcome => simp [Thread.next] at h
    | disarmed first => simp [Thread.next] at h

/-! ## What is known of a thread -/

/-- What is known of a thread by how far it is, and by whether the guard is armed: it asks about its own path, it strikes only
for an event that would bind the target, and once such an event is handled, or the guard was to be disarmed, the guard is not
armed. -/
def Fits (task : Task) (armed : Bool) : Stage → Prop
  | .begun => True
  | .qualifying path => ∃ i e, task = .handle i e ∧ e.path = some path
  | .striking _ => task.Binds
  | .struck | .reconciling => armed = false
  | .handled _ | .returned _ => armed = true → ¬ task.Binds
  | .disarmed _ => task = .disarm ∧ armed = false

/-- What is known of a thread stays so when the guard is disarmed. -/
theorem Fits.disarm {task : Task} {armed armed' : Bool} {stage : Stage} (h : Fits task armed stage)
    (ha : armed = false → armed' = false) : Fits task armed' stage := by
  have hstill : armed' = true → armed = true := by
    intro ha'
    cases armed with
    | true => rfl
    | false => exact absurd ((ha rfl).symm.trans ha') (by decide)
  cases stage with
  | begun => trivial
  | qualifying path => exact h
  | striking path => exact h
  | struck => exact ha h
  | reconciling => exact ha h
  | handled outcome => exact fun ha' => h (hstill ha')
  | returned outcome => exact fun ha' => h (hstill ha')
  | disarmed first => exact ⟨h.1, ha h.2⟩

/-- A step never arms the guard. -/
theorem Moves.disarmed {task : Task} {armed armed' : Bool} {s s' : Stage} (h : Moves task s armed s' armed') :
    armed = false → armed' = false := by
  cases h <;> intro ha <;> first | rfl | exact ha

/-- What is known of a thread is known after its next step. -/
theorem Moves.fits {task : Task} {armed armed' : Bool} {s s' : Stage} (h : Moves task s armed s' armed')
    (hf : Fits task armed s) : Fits task armed' s' := by
  cases h with
  | looks hp => exact ⟨_, _, rfl, hp⟩
  | passes hp =>
    rintro ha ⟨path, hpath, -⟩
    rw [hp ha] at hpath
    nomatch hpath
  | binds hb =>
    obtain ⟨i, e, heq, hp⟩ := hf
    obtain ⟨rfl, rfl⟩ := Task.handle.inj heq
    exact ⟨_, hp, hb⟩
  | letsGo outcome hb =>
    obtain ⟨i, e, heq, hp⟩ := hf
    obtain ⟨rfl, rfl⟩ := Task.handle.inj heq
    rintro - ⟨path, hpath, hb'⟩
    obtain rfl := Option.some.inj (hp.symm.trans hpath)
    exact hb hb'
  | strikes => rfl
  | misses => exact nofun
  | begins => exact hf
  | ends outcome =>
    intro ha
    exact absurd (Eq.trans ha.symm hf) (by decide)
  | returns => exact hf
  | disarms => exact ⟨rfl, rfl⟩

/-- A thread that handles an event and is done has returned. -/
theorem returned_of_done {i : Interceptor} {e : LoadEvent} {stage : Stage} {shipped : Path} {armed : Bool}
    (hf : Fits (.handle i e) armed stage) (h : Thread.next ⟨.handle i e, stage⟩ shipped armed = none) :
    ∃ outcome, stage = .returned outcome := by
  cases stage with
  | begun =>
    simp only [Thread.next] at h
    split at h <;> nomatch h
  | qualifying path =>
    simp only [Thread.next] at h
    split at h <;> nomatch h
  | striking path => nomatch h
  | struck => nomatch h
  | reconciling => nomatch h
  | handled outcome => nomatch h
  | returned outcome => exact ⟨outcome, rfl⟩
  | disarmed first => nomatch hf.1

/-! ## The invariant -/

/-- How many threads are at a stage. -/
def World.count (w : World) (s : Stage) : Nat := w.threads.countP fun t => t.stage = s

/-- One if a condition holds. -/
def tally (p : Prop) [Decidable p] : Nat := if p then 1 else 0

/-- A step changes the count of a stage by whether it leaves the stage and whether it comes to it. -/
theorem count_advance {w : World} {place : Nat} {t : Thread} (h : w.threads[place]? = some t) (armed : Bool)
    (stage s : Stage) :
    (w.advance place t armed stage).count s + tally (t.stage = s) = w.count s + tally (stage = s) := by
  obtain ⟨hlt, rfl⟩ := List.getElem?_eq_some_iff.1 h
  have hle := List.boole_getElem_le_countP (p := fun t : Thread => decide (t.stage = s)) hlt
  simp only [World.count, World.advance, List.countP_set hlt, tally, decide_eq_true_eq] at hle ⊢
  omega

/-- Whoever disarms the guard finds it armed at most once, and either has been told so as an answer, or is to reconcile, or has
begun to. -/
theorem Moves.tallies {task : Task} {armed armed' : Bool} {s s' : Stage} (h : Moves task s armed s' armed') :
    tally (s' = .struck ∨ s' = .disarmed true) + tally (armed = false) = tally (armed' = false) ∧
      tally (s' = .reconciling) + tally (s' = .struck) + tally (s' = .disarmed true) =
        tally (s' = .struck ∨ s' = .disarmed true) + tally (s = .struck) + tally (s = .disarmed true) := by
  cases h with
  | disarms => cases armed <;> decide
  | _ => simp [tally]

/-- Only an event that would bind the target, or a thread told to, disarms an armed guard. -/
theorem Moves.spends {task : Task} {armed armed' : Bool} {s s' : Stage} (h : Moves task s armed s' armed')
    (hf : Fits task armed s) (ha : armed = true) (ha' : armed' = false) : task = .disarm ∨ task.Binds := by
  cases h with
  | strikes => exact Or.inr hf
  | disarms => exact Or.inl rfl
  | _ => exact absurd (ha.symm.trans ha') (by decide)

theorem advance_begun (w : World) (place : Nat) (t : Thread) (armed : Bool) (stage : Stage) :
    (w.advance place t armed stage).begun = w.begun + tally (stage = .reconciling) := by
  simp only [World.advance, tally]
  split <;> rfl

theorem advance_struck (w : World) (place : Nat) (t : Thread) (armed : Bool) (stage : Stage) :
    (w.advance place t armed stage).struck = w.struck + tally (stage = .struck ∨ stage = .disarmed true) := by
  simp only [World.advance, tally]
  split <;> rfl

/-- What holds of every world that threads with some tasks can come to. -/
structure Sound (tasks : List Task) (w : World) : Prop where
  /-- Every thread keeps to its task. -/
  keeps : w.threads.map (·.task) = tasks
  fits : ∀ t ∈ w.threads, Fits t.task w.armed t.stage
  /-- The guard was found armed once, if it is not armed any more. -/
  strikes : w.struck = tally (w.armed = false)
  /-- Whoever found it armed has begun to reconcile, or is to, or only wanted to disarm it. -/
  begins : w.begun + w.count .struck + w.count (.disarmed true) = w.struck
  /-- The guard is disarmed only for an event that would bind the target, or because a thread was told to. -/
  spends : w.armed = false → ∃ task ∈ tasks, task = .disarm ∨ task.Binds

/-- Threads that have not begun, and an armed guard. -/
theorem sound_initial (tasks : List Task) : Sound tasks (World.initial tasks) where
  keeps := by simp [World.initial, Function.comp_def]
  fits := by
    intro t ht
    obtain ⟨task, -, rfl⟩ := List.mem_map.1 ht
    trivial
  strikes := rfl
  begins := by simp [World.initial, World.count, List.countP_map, Function.comp_def]
  spends := nofun

/-- A step keeps the invariant. -/
theorem Sound.step {tasks : List Task} {shipped : Path} {w w' : World} (h : Sound tasks w) (hs : Step shipped w w') :
    Sound tasks w' := by
  obtain ⟨hthere, hnext⟩ := hs
  rename_i place t armed stage
  have hm := moves_of_next hnext
  have ht : t ∈ w.threads := List.mem_of_getElem? hthere
  have hf := h.fits t ht
  obtain ⟨hstrikes, hbegins⟩ := hm.tallies
  refine ⟨?_, ?_, ?_, ?_, ?_⟩
  · obtain ⟨hlt, rfl⟩ := List.getElem?_eq_some_iff.1 hthere
    have hlt' : place < (w.threads.map (·.task)).length := by simpa using hlt
    have hsame : (w.threads.map (·.task))[place] = w.threads[place].task := by rw [List.getElem_map]
    rw [← h.keeps, World.advance, List.map_set, ← hsame, List.set_getElem_self]
  · intro t' ht'
    rcases List.mem_or_eq_of_mem_set ht' with ht' | rfl
    · exact (h.fits t' ht').disarm hm.disarmed
    · exact hm.fits hf
  · have hw := h.strikes
    rw [advance_struck, hw]
    show _ = tally (armed = false)
    omega
  · have hw := h.begins
    have h1 := count_advance hthere armed stage .struck
    have h2 := count_advance hthere armed stage (.disarmed true)
    rw [advance_begun, advance_struck]
    omega
  · intro ha
    cases hw : w.armed with
    | false => exact h.spends hw
    | true => exact ⟨t.task, h.keeps ▸ List.mem_map_of_mem ht, hm.spends hf hw ha⟩

/-- The invariant holds of every world that threads can come to. -/
theorem Reachable.sound {tasks : List Task} {shipped : Path} {w : World} (h : Reachable shipped tasks w) : Sound tasks w := by
  induction h with
  | initial => exact sound_initial tasks
  | step _ hs ih => exact ih.step hs

/-- When all threads are done, and all of them handled events, the guard was spent exactly if one of the events would bind the
target. -/
theorem Sound.armed_of_finished {tasks : List Task} {shipped : Path} {w : World} (h : Sound tasks w)
    (hdone : w.IsFinished shipped) (hall : ∀ task ∈ tasks, task ≠ .disarm) :
    w.armed = false ↔ ∃ task ∈ tasks, task.Binds := by
  constructor
  · intro ha
    obtain ⟨task, ht, rfl | hb⟩ := h.spends ha
    · exact absurd rfl (hall _ ht)
    · exact ⟨task, ht, hb⟩
  · rintro ⟨task, ht, hb⟩
    rw [← h.keeps, List.mem_map] at ht
    obtain ⟨⟨task, stage⟩, ht, rfl⟩ := ht
    cases task with
    | disarm => exact absurd hb id
    | handle i e =>
      obtain ⟨outcome, rfl⟩ := returned_of_done (h.fits _ ht) (hdone _ ht)
      exact Bool.eq_false_iff.2 fun ha => h.fits _ ht ha hb

/-- When all threads are done, and all of them handled events, every disarming that found the guard armed has led to a
reconciliation. -/
theorem Sound.begun_of_finished {tasks : List Task} {shipped : Path} {w : World} (h : Sound tasks w)
    (hdone : w.IsFinished shipped) (hall : ∀ task ∈ tasks, task ≠ .disarm) : w.begun = tally (w.armed = false) := by
  have hreturned : ∀ t ∈ w.threads, ∃ outcome, t.stage = .returned outcome := by
    rintro ⟨task, stage⟩ ht
    cases task with
    | disarm => exact absurd rfl (hall .disarm (h.keeps ▸ List.mem_map_of_mem ht))
    | handle i e => exact returned_of_done (h.fits _ ht) (hdone _ ht)
  have hnone : ∀ s, (∀ outcome, s ≠ .returned outcome) → w.count s = 0 := by
    intro s hs
    refine List.countP_eq_zero.2 fun t ht => ?_
    obtain ⟨outcome, ho⟩ := hreturned t ht
    simpa [ho] using (hs outcome).symm
  have hb := h.begins
  rw [hnone .struck nofun, hnone (.disarmed true) nofun, h.strikes] at hb
  exact hb

/-- Whatever the order of the steps of any number of threads, the guard is reconciled at most once, is found armed by at most
one of those who disarm it, and is never armed again. When all threads are done and none of them was told to disarm the guard,
it was reconciled exactly once if one of the events would bind the target, and is still armed otherwise. -/
theorem reconciled_once (shipped : Path) (tasks : List Task) :
    (∀ w, Reachable shipped tasks w → w.begun ≤ 1 ∧ w.struck ≤ 1 ∧
      ∀ w', Step shipped w w' → w.armed = false → w'.armed = false) ∧
    ((∀ task ∈ tasks, task ≠ .disarm) → ∀ w, Reachable shipped tasks w → w.IsFinished shipped →
      ((∃ task ∈ tasks, task.Binds) → w.begun = 1) ∧
      ((¬ ∃ task ∈ tasks, task.Binds) → w.begun = 0 ∧ w.armed = true)) := by
  constructor
  · intro w hw
    have hs := hw.sound
    have hle : tally (w.armed = false) ≤ 1 := by
      rw [tally]
      split <;> omega
    have hstrikes := hs.strikes
    have hbegins := hs.begins
    refine ⟨by omega, by omega, ?_⟩
    rintro w' ⟨-, hnext⟩ ha
    exact (moves_of_next hnext).disarmed ha
  · intro hall w hw hdone
    have hs := hw.sound
    have hiff := hs.armed_of_finished hdone hall
    rw [hs.begun_of_finished hdone hall]
    constructor
    · intro hb
      rw [hiff.2 hb]
      rfl
    · intro hb
      have ha : w.armed = true := by simpa using mt hiff.1 hb
      rw [ha]
      exact ⟨rfl, rfl⟩

/-! ## Two threads that load the target -/

/-- The world after the threads at some places have taken one step each, in this order, if they can. -/
def World.run? (shipped : Path) : World → List Nat → Option World
  | w, [] => some w
  | w, place :: rest => do
    let t ← w.threads[place]?
    let (armed, stage) ← t.next shipped w.armed
    (w.advance place t armed stage).run? shipped rest

/-- Threads can come to the world to which an order of their steps leads. -/
theorem Reachable.run? {shipped : Path} {tasks : List Task} {places : List Nat} {w w' : World} (h : Reachable shipped tasks w)
    (hrun : w.run? shipped places = some w') : Reachable shipped tasks w' := by
  induction places generalizing w with
  | nil => exact Option.some.inj hrun ▸ h
  | cons place rest ih =>
    simp only [World.run?, bind, Option.bind_eq_some_iff] at hrun
    obtain ⟨t, hthere, ⟨armed, stage⟩, hnext, hrest⟩ := hrun
    exact ih (h.step (.of hthere hnext)) hrest

/-- A load of the target under a hook whose two parts ask nobody. -/
def targetLoad : Task :=
  .handle ⟨"libstdc++.so.6", fun _ => return some false, fun _ => return some .indeterminate⟩
    ⟨.load, some ⟨"/usr/lib/libstdc++.so.6"⟩⟩

/-- Two such threads both see an armed guard. The second one disarms it; the first one finds it disarmed, and returns before the
second one reconciles. -/
def twoLoads : World where
  armed := false
  threads := [⟨targetLoad, .returned none⟩, ⟨targetLoad, .returned (some .indeterminate)⟩]
  begun := 1
  ended := 1
  struck := 1

theorem reconciled_once_twoLoads :
    Reachable ⟨"app/libstdc++.so.6"⟩ [targetLoad, targetLoad] twoLoads ∧ twoLoads.IsFinished ⟨"app/libstdc++.so.6"⟩ ∧
      (∃ task ∈ [targetLoad, targetLoad], task.Binds) ∧ twoLoads.struck ≤ 1 ∧ twoLoads.begun = 1 := by
  have hrun : (World.initial [targetLoad, targetLoad]).run? ⟨"app/libstdc++.so.6"⟩ [0, 1, 0, 1, 1, 0, 0, 1, 1, 1] =
      some twoLoads := rfl
  have hreached := Reachable.initial.run? hrun
  have hdone : twoLoads.IsFinished ⟨"app/libstdc++.so.6"⟩ := by
    intro t ht
    obtain rfl | rfl : t = _ ∨ t = _ := by simpa [twoLoads] using ht
    · rfl
    · rfl
  have hbinds : ∃ task ∈ [targetLoad, targetLoad], task.Binds :=
    ⟨targetLoad, List.mem_cons_self, _, rfl, Or.inl (by decide)⟩
  obtain ⟨hevery, hfinished⟩ := reconciled_once ⟨"app/libstdc++.so.6"⟩ [targetLoad, targetLoad]
  have hnone : ∀ task ∈ [targetLoad, targetLoad], task ≠ .disarm := by simp [targetLoad]
  exact ⟨hreached, hdone, hbinds, (hevery _ hreached).2.1, (hfinished hnone _ hreached hdone).1 hbinds⟩

end Interleaving

end LibraryGuard
