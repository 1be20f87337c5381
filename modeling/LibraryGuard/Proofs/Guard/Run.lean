import LibraryGuard.Proofs.Guard.Interleaving
import Mathlib.Logic.Relation

/-!
# A run of events through hooks that share one guard

What a host does to a guard is a list of deliveries, one hook and one event each: a registry that emits an event delivers it to
all of its hooks (`emit_eq_run`). The run of a list of deliveries is told in full by the first one that would bind the target
(`run_split_at_first_binding`): nothing is reconciled before it, it spends the guard on one reconciliation, and nothing happens
after it. The deliveries are one of the orders in which threads may take their steps (`run_reachable`).
-/

namespace LibraryGuard

/-- One event, given to one hook. -/
structure Delivery where
  hook : Interceptor
  event : LoadEvent

namespace Delivery

/-- Gives one event after the other to its hook, and lists what the hooks answer. -/
def run : List Delivery → GuardState → Traced GuardCall (List (Option Outcome) × GuardState)
  | [], s => return ([], s)
  | d :: rest, s => do
    let (outcome, s) ← d.hook.onEvent s d.event
    let (outcomes, s) ← run rest s
    return (outcome :: outcomes, s)

/-- The event would bind the hook's target. -/
def Binds (d : Delivery) : Prop := ∃ path, d.event.path = some path ∧ d.hook.Binds path

/-- The path that the dependency check is asked about: that of a shared object which does not have the target's name. -/
def asked (d : Delivery) : Option Path :=
  d.event.path.filter fun path => !path.isNamed d.hook.target && path.extension? = some "so"

/-- The calls that asking the dependency check comes to. -/
def checkCalls (d : Delivery) : List GuardCall :=
  match d.asked with
  | some path => .check path :: (d.hook.check path).calls
  | none => []

/-- The warnings that the dependency check gives when it is asked. -/
def checkWarnings (d : Delivery) : List Warning :=
  match d.asked with
  | some path => (d.hook.check path).warnings
  | none => []

/-- The dependency check is asked, and breaks off. -/
def breaksOff (d : Delivery) : Bool :=
  match d.asked with
  | some path => (d.hook.check path).value = none
  | none => false

/-- The one warning that a hook itself gives: the check or the reconciliation broke off. -/
def complaint (d : Delivery) : Warning :=
  ⟨.interception, d.hook.target ++ " check panicked while handling " ++ (d.event.path.getD ⟨""⟩).text ++
    "; runtime link errors may occur"⟩

/-- What an armed guard answers to an event that would not bind the target. -/
def quietOutcome (d : Delivery) : Option Outcome := if d.breaksOff then some .indeterminate else none

/-- The warnings of an armed guard at an event that would not bind the target. -/
def quietWarnings (d : Delivery) : List Warning := d.checkWarnings ++ if d.breaksOff then [d.complaint] else []

/-- What an armed guard answers to an event that would bind the target. -/
def strikeOutcome (d : Delivery) (shipped : Path) : Outcome := (d.hook.reconcile shipped).value.getD .indeterminate

/-- The calls of an armed guard at an event that would bind the target. -/
def strikeCalls (d : Delivery) (shipped : Path) : List GuardCall :=
  d.checkCalls ++ .reconcile shipped :: (d.hook.reconcile shipped).calls

/-- The warnings of an armed guard at an event that would bind the target. -/
def strikeWarnings (d : Delivery) (shipped : Path) : List Warning :=
  d.checkWarnings ++ ((d.hook.reconcile shipped).warnings ++
    if (d.hook.reconcile shipped).value = none then [d.complaint] else [])

end Delivery

/-- What a host does: it gives an event to one hook, or has a registry give it to all of its hooks. -/
inductive HostStep where
  | give (hook : Interceptor) (event : LoadEvent)
  | emit (hooks : List Interceptor) (event : LoadEvent)

namespace HostStep

/-- The deliveries that a host's step comes to. -/
def deliveries : HostStep → List Delivery
  | .give hook e => [⟨hook, e⟩]
  | .emit hooks e => hooks.map fun hook => ⟨hook, e⟩

/-- Takes one of the host's steps after the other, and lists the answers that the host is given: a registry gives none. -/
def run : List HostStep → GuardState → Traced GuardCall (List (Option Outcome) × GuardState)
  | [], s => return ([], s)
  | .give hook e :: rest, s => do
    let (outcome, s) ← hook.onEvent s e
    let (outcomes, s) ← run rest s
    return (outcome :: outcomes, s)
  | .emit hooks e :: rest, s => do
    let s ← Interceptor.emit hooks s e
    run rest s

/-- Of the answers of all hooks, those that the host is given. -/
def given : List HostStep → List (Option Outcome) → List (Option Outcome)
  | [], _ => []
  | .give _ _ :: rest, outcomes => outcomes.take 1 ++ given rest (outcomes.drop 1)
  | .emit hooks _ :: rest, outcomes => given rest (outcomes.drop hooks.length)

end HostStep

/-! ## One event -/

namespace Interceptor

variable (i : Interceptor) (path : Path)

/-- A guard that is not armed lets every event go, without a call or a warning. -/
theorem onEvent_disarmed (shipped : Path) (e : LoadEvent) :
    i.onEvent ⟨shipped, false⟩ e = ⟨(none, ⟨shipped, false⟩), [], []⟩ := rfl

/-- An event that breaks off gives one warning, and no decision. -/
theorem brokenOff_eq :
    i.brokenOff path =
      ⟨.indeterminate, [], [⟨.interception, i.target ++ " check panicked while handling " ++ path.text ++
        "; runtime link errors may occur"⟩]⟩ := rfl

/-- An armed guard is disarmed, and reconciled once with the shipped library. -/
theorem fire_armed (shipped : Path) :
    i.fire ⟨shipped, true⟩ path =
      ⟨(some ((i.reconcile shipped).value.getD .indeterminate), ⟨shipped, false⟩),
        .reconcile shipped :: (i.reconcile shipped).calls,
        (i.reconcile shipped).warnings ++
          if (i.reconcile shipped).value = none then (i.brokenOff path).warnings else []⟩ := by
  unfold fire
  cases hv : (i.reconcile shipped).value with
  | none => apply Traced.ext <;> simp [GuardState.disarm, hv, brokenOff_eq]
  | some outcome => apply Traced.ext <;> simp [GuardState.disarm, hv]

end Interceptor

namespace Delivery

/-- The thread that handles the delivery's event. -/
def task (d : Delivery) : Interleaving.Task := .handle d.hook d.event

variable (d : Delivery) (shipped : Path)

/-- Whether the path would bind the target is found out by the calls and the warnings of asking the check. -/
theorem qualifies_calls_and_warnings {path : Path} (h : d.event.path = some path) :
    (d.hook.qualifies path).calls = d.checkCalls ∧ (d.hook.qualifies path).warnings = d.checkWarnings ∧
      ((d.hook.qualifies path).value = none ↔ d.breaksOff = true) := by
  simp only [checkCalls, checkWarnings, breaksOff, asked, h, Interceptor.qualifies_eq, Option.filter_some]
  by_cases hn : path.isNamed d.hook.target = true
  · simp [hn]
  · by_cases he : path.extension? = some "so" <;> simp [hn, he]

/-- An armed guard stays so at an event that would not bind the target. -/
theorem onEvent_of_not_binds (h : ¬ d.Binds) :
    d.hook.onEvent ⟨shipped, true⟩ d.event = ⟨(d.quietOutcome, ⟨shipped, true⟩), d.checkCalls, d.quietWarnings⟩ := by
  unfold Interceptor.onEvent
  cases hp : d.event.path with
  | none => apply Traced.ext <;> simp [quietOutcome, quietWarnings, checkCalls, checkWarnings, breaksOff, asked, hp]
  | some path =>
    obtain ⟨hc, hw, hb⟩ := d.qualifies_calls_and_warnings hp
    have hnot : (d.hook.qualifies path).value ≠ some true := fun hq =>
      h ⟨path, hp, (d.hook.qualifies_iff_binds path).1 hq⟩
    cases hv : (d.hook.qualifies path).value with
    | none =>
      apply Traced.ext <;> simp [hv, hc, hw, hb.1 hv, quietOutcome, quietWarnings, complaint, hp, Interceptor.brokenOff_eq]
    | some b =>
      have hb' : d.breaksOff = false := by simpa [hv] using hb
      obtain rfl : b = false := by simpa [hv] using hnot
      apply Traced.ext <;> simp [hv, hc, hw, hb', quietOutcome, quietWarnings]

/-- An armed guard is spent on an event that would bind the target. -/
theorem onEvent_of_binds (h : d.Binds) :
    d.hook.onEvent ⟨shipped, true⟩ d.event =
      ⟨(some (d.strikeOutcome shipped), ⟨shipped, false⟩), d.strikeCalls shipped, d.strikeWarnings shipped⟩ := by
  obtain ⟨path, hp, hb⟩ := h
  have hv := (d.hook.qualifies_iff_binds path).2 hb
  obtain ⟨hc, hw, -⟩ := d.qualifies_calls_and_warnings hp
  unfold Interceptor.onEvent
  apply Traced.ext <;>
    simp [hp, hv, hc, hw, Interceptor.fire_armed, Interceptor.brokenOff_eq, strikeOutcome, strikeCalls, strikeWarnings,
      complaint]

/-- A hook keeps to the shipped library, and never arms a guard. -/
theorem onEvent_state (armed : Bool) :
    (d.hook.onEvent ⟨shipped, armed⟩ d.event).value.2 =
      ⟨shipped, (d.hook.onEvent ⟨shipped, armed⟩ d.event).value.2.armed⟩ := by
  cases armed with
  | false => rfl
  | true =>
    by_cases h : d.Binds
    · rw [d.onEvent_of_binds shipped h]
    · rw [d.onEvent_of_not_binds shipped h]

/-! ## One event after the other -/

theorem run_cons (rest : List Delivery) (s : GuardState) :
    run (d :: rest) s =
      ⟨((d.hook.onEvent s d.event).value.1 :: (run rest (d.hook.onEvent s d.event).value.2).value.1,
          (run rest (d.hook.onEvent s d.event).value.2).value.2),
        (d.hook.onEvent s d.event).calls ++ (run rest (d.hook.onEvent s d.event).value.2).calls,
        (d.hook.onEvent s d.event).warnings ++ (run rest (d.hook.onEvent s d.event).value.2).warnings⟩ := by
  apply Traced.ext <;> simp [run]

variable {d}

/-- A guard that is not armed lets all events go. -/
theorem run_disarmed (ds : List Delivery) : run ds ⟨shipped, false⟩ = ⟨(ds.map fun _ => none, ⟨shipped, false⟩), [], []⟩ := by
  induction ds with
  | nil => rfl
  | cons d rest ih =>
    rw [run_cons, Interceptor.onEvent_disarmed, ih]
    rfl

/-- Every delivery has its answer. -/
theorem run_length (ds : List Delivery) (s : GuardState) : (run ds s).value.1.length = ds.length := by
  induction ds generalizing s with
  | nil => rfl
  | cons d rest ih => simp [run_cons, ih]

/-- A run is that of its first deliveries, and then that of the others. -/
theorem run_append (before after : List Delivery) (s : GuardState) :
    run (before ++ after) s =
      ⟨((run before s).value.1 ++ (run after (run before s).value.2).value.1, (run after (run before s).value.2).value.2),
        (run before s).calls ++ (run after (run before s).value.2).calls,
        (run before s).warnings ++ (run after (run before s).value.2).warnings⟩ := by
  induction before generalizing s with
  | nil => rfl
  | cons d rest ih =>
    rw [List.cons_append, run_cons, run_cons, ih]
    simp only [List.cons_append, List.append_assoc]

/-- An armed guard stays so in a run in which no event would bind the target. -/
theorem run_of_quiet {ds : List Delivery} (h : ∀ d ∈ ds, ¬ d.Binds) :
    run ds ⟨shipped, true⟩ = ⟨(ds.map quietOutcome, ⟨shipped, true⟩), ds.flatMap checkCalls, ds.flatMap quietWarnings⟩ := by
  induction ds with
  | nil => rfl
  | cons d rest ih =>
    obtain ⟨hd, hrest⟩ := List.forall_mem_cons.1 h
    rw [run_cons, onEvent_of_not_binds d shipped hd, ih hrest]
    rfl

/-- An armed guard is spent on the first event of a run that would bind the target. -/
theorem run_of_first {before : List Delivery} {e : Delivery} (h : ∀ d ∈ before, ¬ d.Binds) (he : e.Binds)
    (after : List Delivery) :
    run (before ++ e :: after) ⟨shipped, true⟩ =
      ⟨(before.map quietOutcome ++ some (e.strikeOutcome shipped) :: after.map fun _ => none, ⟨shipped, false⟩),
        before.flatMap checkCalls ++ e.strikeCalls shipped,
        before.flatMap quietWarnings ++ e.strikeWarnings shipped⟩ := by
  rw [run_append, run_of_quiet shipped h, run_cons, onEvent_of_binds e shipped he, run_disarmed]
  simp only [List.append_nil]

end Delivery

/-- A registry's event is a delivery to each of its hooks, of which the answers are dropped. -/
theorem Interceptor.emit_eq_run (hooks : List Interceptor) (s : GuardState) (e : LoadEvent) :
    Interceptor.emit hooks s e = Prod.snd <$> Delivery.run (hooks.map fun hook => ⟨hook, e⟩) s := by
  induction hooks generalizing s with
  | nil => rfl
  | cons hook rest ih =>
    apply Traced.ext <;> simp [emit, ih, Delivery.run_cons]

/-- The host's steps come to their deliveries, and the host is given the answers that a registry does not drop. -/
theorem HostStep.run_eq (steps : List HostStep) (s : GuardState) :
    run steps s = (fun r => (given steps r.1, r.2)) <$> Delivery.run (steps.flatMap deliveries) s := by
  induction steps generalizing s with
  | nil => rfl
  | cons step rest ih =>
    cases step with
    | give hook e => apply Traced.ext <;> simp [run, ih, deliveries, given, Delivery.run_cons]
    | emit hooks e =>
      have hlen := Delivery.run_length (hooks.map fun hook => ⟨hook, e⟩) s
      rw [List.length_map] at hlen
      apply Traced.ext <;>
        simp [run, ih, deliveries, given, Delivery.run_append, Interceptor.emit_eq_run, List.drop_left' hlen]

/-! ## The order of the steps -/

namespace Interleaving

/-- What a thread that handles an event makes of the guard and of its stage when no other thread takes a step. -/
def Alone (shipped : Path) (task : Task) (p q : Bool × Stage) : Prop := Thread.next ⟨task, p.2⟩ shipped p.1 = some q

variable (d : Delivery) (shipped : Path)

/-- A thread that is not interrupted lets an event go that would not bind the target. -/
theorem alone_of_not_binds (h : ¬ d.Binds) :
    Relation.ReflTransGen (Alone shipped d.task) (true, .begun) (true, .handled d.quietOutcome) := by
  cases hp : d.event.path with
  | none =>
    have h1 : Alone shipped d.task (true, .begun) (true, .handled d.quietOutcome) := by
      simp [Alone, Delivery.task, Thread.next, Delivery.quietOutcome, Delivery.breaksOff, Delivery.asked, hp]
    exact .single h1
  | some path =>
    obtain ⟨-, -, hoff⟩ := d.qualifies_calls_and_warnings hp
    have h1 : Alone shipped d.task (true, .begun) (true, .qualifying path) := by
      simp [Alone, Delivery.task, Thread.next, hp]
    have h2 : Alone shipped d.task (true, .qualifying path) (true, .handled d.quietOutcome) := by
      cases hv : (d.hook.qualifies path).value with
      | none => simp [Alone, Delivery.task, Thread.next, hv, Delivery.quietOutcome, hoff.1 hv]
      | some b =>
        have hnot : (d.hook.qualifies path).value ≠ some true := fun hq =>
          h ⟨path, hp, (d.hook.qualifies_iff_binds path).1 hq⟩
        obtain rfl : b = false := by simpa [hv] using hnot
        have hon : d.breaksOff = false := by simpa [hv] using hoff
        simp [Alone, Delivery.task, Thread.next, hv, Delivery.quietOutcome, hon]
    exact .tail (.single h1) h2

/-- A thread that is not interrupted disarms the guard for an event that would bind the target. -/
theorem alone_strikes (h : d.Binds) :
    Relation.ReflTransGen (Alone shipped d.task) (true, .begun) (false, .struck) := by
  obtain ⟨path, hp, hb⟩ := h
  have hv := (d.hook.qualifies_iff_binds path).2 hb
  have h1 : Alone shipped d.task (true, .begun) (true, .qualifying path) := by
    simp [Alone, Delivery.task, Thread.next, hp]
  have h2 : Alone shipped d.task (true, .qualifying path) (true, .striking path) := by
    simp [Alone, Delivery.task, Thread.next, hv]
  have h3 : Alone shipped d.task (true, .striking path) (false, .struck) := rfl
  exact .tail (.tail (.single h1) h2) h3

/-- A thread that is not interrupted disarms the guard for an event that would bind the target, and then reconciles. -/
theorem alone_of_binds (h : d.Binds) :
    Relation.ReflTransGen (Alone shipped d.task) (true, .begun) (false, .handled (some (d.strikeOutcome shipped))) := by
  have h4 : Alone shipped d.task (false, .struck) (false, .reconciling) := rfl
  have h5 : Alone shipped d.task (false, .reconciling) (false, .handled (some (d.strikeOutcome shipped))) := rfl
  exact .tail (.tail (alone_strikes d shipped h) h4) h5

/-- A thread that is not interrupted answers what handling the event answers, and leaves the guard as that does. -/
theorem alone_onEvent (armed : Bool) :
    Relation.ReflTransGen (Alone shipped d.task) (armed, .begun)
      ((d.hook.onEvent ⟨shipped, armed⟩ d.event).value.2.armed,
        .returned (d.hook.onEvent ⟨shipped, armed⟩ d.event).value.1) := by
  have hreturns : ∀ armed outcome, Alone shipped d.task (armed, .handled outcome) (armed, .returned outcome) :=
    fun _ _ => rfl
  refine .tail ?_ (hreturns _ _)
  cases armed with
  | false =>
    have h1 : Alone shipped d.task (false, .begun) (false, .handled none) := rfl
    exact .single h1
  | true =>
    by_cases hb : d.Binds
    · rw [d.onEvent_of_binds shipped hb]
      exact alone_of_binds d shipped hb
    · rw [d.onEvent_of_not_binds shipped hb]
      exact alone_of_not_binds d shipped hb

variable {shipped}

/-- A thread among others may take the steps that it takes alone. -/
theorem Reachable.alone {tasks : List Task} {w : World} (h : Reachable shipped tasks w) {place : Nat}
    {task : Task} {stage : Stage} (hthere : w.threads[place]? = some ⟨task, stage⟩) {q : Bool × Stage}
    (hs : Relation.ReflTransGen (Alone shipped task) (w.armed, stage) q) :
    ∃ w', Reachable shipped tasks w' ∧ w'.armed = q.1 ∧ w'.threads = w.threads.set place ⟨task, q.2⟩ := by
  obtain ⟨hlt, heq⟩ := List.getElem?_eq_some_iff.1 hthere
  induction hs with
  | refl => exact ⟨w, h, rfl, by rw [← heq, List.set_getElem_self]⟩
  | tail _ hnext ih =>
    rename_i p q _
    obtain ⟨w', hw', ha, ht⟩ := ih
    have hthere' : w'.threads[place]? = some ⟨task, p.2⟩ := by rw [ht, List.getElem?_set_self hlt]
    have hnext' : Thread.next ⟨task, p.2⟩ shipped w'.armed = some (q.1, q.2) := by rw [ha]; exact hnext
    refine ⟨_, .step hw' (.of hthere' hnext'), rfl, ?_⟩
    simp only [World.advance, ht, List.set_set]

/-- From a world in which some threads are at any stage and the others have not begun, the others may handle their events one
after the other. -/
theorem Reachable.run {tasks : List Task} {w : World} (h : Reachable shipped tasks w) (done : List Thread)
    (ds : List Delivery) (hthreads : w.threads = done ++ ds.map fun d => { task := d.task }) :
    ∃ w', Reachable shipped tasks w' ∧ w'.armed = (Delivery.run ds ⟨shipped, w.armed⟩).value.2.armed ∧
      w'.threads.map (·.stage) =
        done.map (·.stage) ++ (Delivery.run ds ⟨shipped, w.armed⟩).value.1.map .returned := by
  induction ds generalizing w done with
  | nil => exact ⟨w, h, rfl, by simp [hthreads, Delivery.run]⟩
  | cons d rest ih =>
    have hthere : w.threads[done.length]? = some ⟨d.task, .begun⟩ := by simp [hthreads]
    obtain ⟨w₁, hw₁, ha₁, ht₁⟩ := h.alone hthere (alone_onEvent d shipped w.armed)
    obtain ⟨w₂, hw₂, ha₂, ht₂⟩ :=
      ih hw₁ (done ++ [⟨d.task, .returned (d.hook.onEvent ⟨shipped, w.armed⟩ d.event).value.1⟩]) (by simp [ht₁, hthreads])
    refine ⟨w₂, hw₂, ?_, ?_⟩
    · rw [ha₂, ha₁, Delivery.run_cons, ← d.onEvent_state]
    · rw [ht₂, ha₁, Delivery.run_cons, ← d.onEvent_state]
      simp

end Interleaving

/-- One event given after the other is one of the orders in which threads that handle the events may take their steps. -/
theorem Delivery.run_reachable (shipped : Path) (ds : List Delivery) :
    ∃ w, Interleaving.Reachable shipped (ds.map Delivery.task) w ∧ w.armed = (run ds ⟨shipped, true⟩).value.2.armed ∧
      w.threads.map (·.stage) = (run ds ⟨shipped, true⟩).value.1.map .returned := by
  have hinitial : Interleaving.Reachable shipped (ds.map task) (.initial (ds.map task)) := .initial
  obtain ⟨w, hw, ha, ht⟩ := hinitial.run [] ds (by simp [Interleaving.World.initial])
  exact ⟨w, hw, ha, ht⟩

/-- Whatever a host does to an armed guard is told by the first delivery that would bind a hook's target. The host is given the
answers that a registry does not drop. As long as no delivery would bind the target, the guard stays armed, nothing is
reconciled, and there is no answer but where the check breaks off. The first delivery that would bind the target spends the
guard on one reconciliation, and after it there are no answers, calls and warnings any more. The deliveries are one of the
orders in which threads may take their steps, and in none of them is the guard armed while it is reconciled. -/
theorem HostStep.run_split_at_first_binding (shipped : Path) (steps : List HostStep) :
    let ds := steps.flatMap deliveries
    run steps ⟨shipped, true⟩ = (fun r => (given steps r.1, r.2)) <$> Delivery.run ds ⟨shipped, true⟩ ∧
    (∀ before rest, ds = before ++ rest → (∀ d ∈ before, ¬ d.Binds) →
      Delivery.run before ⟨shipped, true⟩ =
        ⟨(before.map Delivery.quietOutcome, ⟨shipped, true⟩), before.flatMap Delivery.checkCalls,
          before.flatMap Delivery.quietWarnings⟩) ∧
    (∀ before e after, ds = before ++ e :: after → (∀ d ∈ before, ¬ d.Binds) → e.Binds →
      Delivery.run ds ⟨shipped, true⟩ =
        ⟨(before.map Delivery.quietOutcome ++ some (e.strikeOutcome shipped) :: after.map fun _ => none,
            ⟨shipped, false⟩),
          before.flatMap Delivery.checkCalls ++ e.strikeCalls shipped,
          before.flatMap Delivery.quietWarnings ++ e.strikeWarnings shipped⟩) ∧
    (∃ w, Interleaving.Reachable shipped (ds.map Delivery.task) w ∧
      w.armed = (Delivery.run ds ⟨shipped, true⟩).value.2.armed ∧
      w.threads.map (·.stage) = (Delivery.run ds ⟨shipped, true⟩).value.1.map .returned) ∧
    ∀ w, Interleaving.Reachable shipped (ds.map Delivery.task) w →
      ∀ t ∈ w.threads, t.stage = .reconciling → w.armed = false := by
  intro ds
  refine ⟨run_eq steps _, ?_, ?_, Delivery.run_reachable shipped ds, ?_⟩
  · intro before rest _ hquiet
    exact Delivery.run_of_quiet shipped hquiet
  · intro before e after heq hquiet he
    rw [heq, Delivery.run_of_first shipped hquiet he]
  · intro w hw t ht hstage
    have hfits := hw.sound.fits t ht
    rw [hstage] at hfits
    exact hfits

end LibraryGuard
