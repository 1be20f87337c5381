import LibraryGuard.Guard

/-!
# Several threads on one guard

Each thread handles one event or disarms the guard, in steps between which other threads may take theirs: it looks whether the
guard is armed, asks whether the path would bind the target, disarms the guard, begins the reconciliation if it was the one
that disarmed it, comes to its end, and returns. `Step` lets any thread take its next step, and `Reachable` holds of every
world that threads which have not begun can come to. A host's thread that makes several calls is as many threads here: that
they may run in any order allows one after the other as well.
-/

namespace LibraryGuard.Interleaving

/-- What a thread does with the guard. -/
inductive Task where
  | handle (interceptor : Interceptor) (event : LoadEvent)
  | disarm

/-- How far a thread is. -/
inductive Stage where
  | begun
  /-- It saw an armed guard, and asks whether the path would bind the target. -/
  | qualifying (path : Path)
  /-- The path would bind the target, and the guard is to be disarmed. -/
  | striking (path : Path)
  /-- It has disarmed the guard, and is to reconcile. -/
  | struck
  /-- The reconciliation has begun. -/
  | reconciling
  /-- The event is handled, and the call is to return. -/
  | handled (outcome : Option Outcome)
  /-- The call has returned, and the host goes on. -/
  | returned (outcome : Option Outcome)
  /-- The guard is disarmed, and was armed before or not. -/
  | disarmed (first : Bool)
  deriving DecidableEq, Repr

/-- A thread. -/
structure Thread where
  task : Task
  stage : Stage := .begun

/-- What a thread's next step makes of the guard, which is armed or not, and of the thread's stage; nothing when the thread is
done. -/
def Thread.next (t : Thread) (shipped : Path) (armed : Bool) : Option (Bool × Stage) :=
  match t.task, t.stage with
  | .disarm, .begun => some (false, .disarmed armed)
  | .handle _ e, .begun =>
    match armed, e.path with
    | true, some path => some (armed, .qualifying path)
    | _, _ => some (armed, .handled none)
  | .handle i _, .qualifying path =>
    match (i.qualifies path).value with
    | none => some (armed, .handled (some .indeterminate))
    | some false => some (armed, .handled none)
    | some true => some (armed, .striking path)
  | .handle _ _, .striking _ => some (false, if armed then .struck else .handled none)
  | .handle _ _, .struck => some (armed, .reconciling)
  | .handle i _, .reconciling => some (armed, .handled (some ((i.reconcile shipped).value.getD .indeterminate)))
  | .handle _ _, .handled outcome => some (armed, .returned outcome)
  | _, _ => none

/-- A guard with its threads, and how often a reconciliation was begun, was ended, and the guard was found armed by a thread
that disarmed it. -/
structure World where
  armed : Bool := true
  threads : List Thread
  begun : Nat := 0
  ended : Nat := 0
  struck : Nat := 0

namespace World

/-- The world after a thread, at some place among the threads, has come to a stage. -/
def advance (w : World) (place : Nat) (t : Thread) (armed : Bool) (stage : Stage) : World where
  armed := armed
  threads := w.threads.set place { t with stage := stage }
  begun := if stage = .reconciling then w.begun + 1 else w.begun
  ended := if t.stage = .reconciling then w.ended + 1 else w.ended
  struck := if stage = .struck ∨ stage = .disarmed true then w.struck + 1 else w.struck

/-- Whether every thread is done. -/
def IsFinished (w : World) (shipped : Path) : Prop := ∀ t ∈ w.threads, t.next shipped w.armed = none

end World

/-- One thread takes its next step. -/
inductive Step (shipped : Path) : World → World → Prop where
  | of {w : World} {place : Nat} {t : Thread} {armed : Bool} {stage : Stage} (isThere : w.threads[place]? = some t)
      (isNext : t.next shipped w.armed = some (armed, stage)) : Step shipped w (w.advance place t armed stage)

/-- The world in which no thread of some tasks has begun and the guard is armed. -/
def World.initial (tasks : List Task) : World := { threads := tasks.map fun task => { task := task } }

/-- The worlds that threads with some tasks can come to. -/
inductive Reachable (shipped : Path) (tasks : List Task) : World → Prop where
  | initial : Reachable shipped tasks (World.initial tasks)
  | step {w w' : World} (before : Reachable shipped tasks w) (last : Step shipped w w') : Reachable shipped tasks w'

end LibraryGuard.Interleaving
