import LibraryGuard.Reconciliation

/-!
# The guard that strikes once

A guard is armed with the shipped library until the first event that would bind the target, by its own name or through a
dependency. That event disarms it, and only then are the two copies reconciled. The dependency check and the reconciliation
may break off; the event then ends with a warning and no decision, and the host never sees it.
-/

namespace LibraryGuard

/-- The shipped library, and whether the check is still to come. -/
structure GuardState where
  shipped : Path
  armed : Bool := true
  deriving DecidableEq, Repr

/-- Disarms the guard, and says whether it was armed. -/
def GuardState.disarm (s : GuardState) : Bool × GuardState := (s.armed, { s with armed := false })

/-- What the host does with a path. -/
inductive EventKind where
  | import_ | load
  deriving DecidableEq, Repr

/-- The host is about to import or load something, from a path if it knows one. -/
structure LoadEvent where
  kind : EventKind
  path : Option Path
  deriving DecidableEq, Repr

/-- What the guard calls: its own two parts, and what these in turn ask the lister and the host. -/
inductive GuardCall where
  | check (path : Path)
  | list (path : Path)
  | reconcile (shipped : Path)
  | host (call : HostCall)
  deriving DecidableEq, Repr

/-- One hook on the host's events: the target, the dependency check and the reconciliation. The last two give nothing when
they break off. -/
structure Interceptor where
  target : String
  check : Path → Traced GuardCall (Option Bool)
  reconcile : Path → Traced GuardCall (Option Outcome)

namespace Interceptor

/-- Whether a path would bind the target; nothing if the check breaks off. Only shared objects are checked. -/
def qualifies (i : Interceptor) (path : Path) : Traced GuardCall (Option Bool) := do
  if path.isNamed i.target then return some true
  if path.extension? = some "so" then
    Traced.call (.check path)
    i.check path
  else return some false

/-- The end of an event in which the check or the reconciliation broke off. -/
def brokenOff (i : Interceptor) (path : Path) : Traced GuardCall Outcome := do
  Traced.warn .interception
    (i.target ++ " check panicked while handling " ++ path.text ++ "; runtime link errors may occur")
  return .indeterminate

/-- Disarms the guard, and reconciles if this call did so. -/
def fire (i : Interceptor) (s : GuardState) (path : Path) : Traced GuardCall (Option Outcome × GuardState) := do
  let (first, s) := s.disarm
  if !first then return (none, s)
  Traced.call (.reconcile s.shipped)
  match ← i.reconcile s.shipped with
  | some outcome => return (some outcome, s)
  | none => return (some (← i.brokenOff path), s)

/-- Handles an event. There is an outcome if this event spent the guard, or if the check broke off. -/
def onEvent (i : Interceptor) (s : GuardState) (e : LoadEvent) : Traced GuardCall (Option Outcome × GuardState) := do
  if !s.armed then return (none, s)
  match e.path with
  | none => return (none, s)
  | some path =>
    match ← i.qualifies path with
    | none => return (some (← i.brokenOff path), s)
    | some false => return (none, s)
    | some true => i.fire s path

/-- Delivers an event to several hooks, one after the other. -/
def emit : List Interceptor → GuardState → LoadEvent → Traced GuardCall GuardState
  | [], s, _ => return s
  | i :: rest, s, e => do
    let (_, s) ← i.onEvent s e
    emit rest s e

end Interceptor

end LibraryGuard
