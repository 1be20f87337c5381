import LibraryGuard.Guard

/-!
# Hooks of several guards

A host may have hooks of several guards. Each hook names the guard that it works on, and several hooks may work on one. An event
reaches the hooks in the order in which they were added. A guard that is attached is a new one, on which no earlier hook works.
-/

namespace LibraryGuard

/-- A hook on the events of a host, and the guard that it works on. -/
structure Hook (Guard : Type) where
  interceptor : Interceptor
  guard : Guard

/-- What a host calls with its events: the hooks, in the order in which they were added. -/
structure EventSource (Guard : Type) where
  hooks : List (Hook Guard)

variable {Guard : Type}

/-- The states of the guards of a host, with that of a new guard. -/
def withNew (new : GuardState) (guards : Guard → GuardState) : Option Guard → GuardState
  | none => new
  | some g => guards g

namespace Hook

/-- A hook among the guards of a host and a new one, on which it does not work. -/
def besideNew (hook : Hook Guard) : Hook (Option Guard) := ⟨hook.interceptor, some hook.guard⟩

variable [DecidableEq Guard]

/-- Calls a hook with an event. -/
def onEvent (hook : Hook Guard) (guards : Guard → GuardState) (e : LoadEvent) : Traced GuardCall (Guard → GuardState) := do
  let (_, s) ← hook.interceptor.onEvent (guards hook.guard) e
  return fun g => if g = hook.guard then s else guards g

/-- Calls several hooks with an event, one after the other. -/
def deliver : List (Hook Guard) → (Guard → GuardState) → LoadEvent → Traced GuardCall (Guard → GuardState)
  | [], guards, _ => return guards
  | hook :: rest, guards, e => do
    let guards ← hook.onEvent guards e
    deliver rest guards e

end Hook

namespace EventSource

/-- The interceptors that were added, whichever guards they work on. -/
def interceptors (source : EventSource Guard) : List Interceptor := source.hooks.map (·.interceptor)

/-- Adds a hook that works on a new guard. -/
def attach (source : EventSource Guard) (i : Interceptor) : EventSource (Option Guard) :=
  ⟨source.hooks.map Hook.besideNew ++ [⟨i, none⟩]⟩

variable [DecidableEq Guard]

/-- Delivers an event to all hooks. -/
def emit (source : EventSource Guard) : (Guard → GuardState) → LoadEvent → Traced GuardCall (Guard → GuardState) :=
  Hook.deliver source.hooks

/-- Delivers events to all hooks, one event after the other. -/
def emitAll (source : EventSource Guard) (guards : Guard → GuardState) (es : List LoadEvent) :
    Traced GuardCall (Guard → GuardState) := es.foldlM source.emit guards

end EventSource

end LibraryGuard
