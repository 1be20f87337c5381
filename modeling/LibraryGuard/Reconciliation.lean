import LibraryGuard.Error

/-!
# Reconciling the system's copy with the shipped one

Both copies are found and their versions compared. A system copy that is new enough is left alone. An older one is
forestalled by loading the shipped copy, unless it is mapped already, when only a warning is left. Everything that cannot
be found out ends the run with a warning and no decision.
-/

namespace LibraryGuard

/-- What to do about two versions. -/
inductive Decision where
  | leave | load | warn
  deriving DecidableEq, Repr

/-- Decides by the versions and by whether the system's copy is mapped already. -/
def decision (system shipped : Version) (bound : Bool) : Decision :=
  if shipped ≤ system then .leave else if bound then .warn else .load

/-- How a run ended. -/
inductive Outcome where
  | upToDate (system shipped : Version)
  | loaded (path : Path) (system shipped : Version)
  | loadFailed (path : Path) (reason : String)
  | alreadyBound (system shipped : Version)
  | indeterminate
  deriving DecidableEq, Repr

/-- The words for an outcome. -/
def Outcome.text : Outcome → String
  | .upToDate system shipped => "up to date (system " ++ system.text ++ ", shipped " ++ shipped.text ++ ")"
  | .loaded path system shipped =>
    "loaded " ++ path.text ++ " (system " ++ system.text ++ " < shipped " ++ shipped.text ++ ")"
  | .loadFailed path reason => "failed to load " ++ path.text ++ ": " ++ reason
  | .alreadyBound system shipped =>
    "already bound to older system copy (" ++ system.text ++ " < " ++ shipped.text ++ ")"
  | .indeterminate => "indeterminate"

/-- A call to the linker or to the probe. What the linker finds is told by the name that it was found under, so this is what the
call for its place carries. -/
inductive HostCall where
  | find (name : String)
  | resolve (name : String)
  | probe (name : String)
  | load (path : Path)
  deriving DecidableEq, Repr

/-- The files, and the answers of the linker and of the probe, of which nothing is assumed. -/
structure Host where
  files : Files
  /-- Whether a library of that name is mapped. -/
  isMapped : String → Bool
  /-- Where the mapped library of that name comes from. -/
  resolve : String → Except GuardError Path
  /-- Where a fresh process would take the library of that name from. -/
  probe : String → Except GuardError Path
  /-- Maps the library at a path. -/
  load : Path → Except GuardError Unit

namespace Host

/-- The system's copy, if it can be told, and whether it is mapped. -/
def systemCopy (h : Host) (target : String) : Traced HostCall (Option Path × Bool) := do
  Traced.call (.find target)
  if h.isMapped target then
    Traced.call (.resolve target)
    match h.resolve target with
    | .ok path => return (some path, true)
    | .error e => do
      Traced.warn .reconciliation
        (target ++ " is already loaded but " ++ e.message ++ "; runtime link errors may occur")
      return (none, true)
  else
    Traced.call (.probe target)
    match h.probe target with
    | .ok path => return (some path, false)
    | .error e => do
      Traced.warn .reconciliation (e.message ++ "; runtime link errors may occur")
      return (none, false)

/-- Whether the shipped path is a file, with a warning if not. -/
def checkShipped (h : Host) (target : String) (shipped : Path) : Logged Bool := do
  if h.files.isFile shipped then return true
  Logged.warn .reconciliation
    ("the path to the shipped " ++ target ++ " is invalid: " ++ shipped.text ++ "; runtime link errors may occur")
  return false

/-- The system's path if it is known and a file, with a warning if not. -/
def checkSystem (h : Host) (target : String) : Option Path → Logged (Option Path)
  | some path => do
    if h.files.isFile path then return some path
    Logged.warn .reconciliation
      ("the path to the system " ++ target ++ " is invalid: " ++ path.text ++ "; runtime link errors may occur")
    return none
  | none => do
    Logged.warn .reconciliation
      ("the path to the system " ++ target ++ " could not be determined; runtime link errors may occur")
    return none

/-- The versions of the system's and of the shipped copy. The second is read only if the first can be. -/
def versions (h : Host) (family : String) (system shipped : Path) : Logged (Except GuardError (Version × Version)) := do
  match ← h.files.newestVersion system family with
  | .error e => return .error e
  | .ok v => return (← h.files.newestVersion shipped family).map (v, ·)

/-- Acts on the two versions. -/
def act (h : Host) (target : String) (system shipped : Path) (bound : Bool) (vs : Version × Version) :
    Traced HostCall Outcome := do
  match decision vs.1 vs.2 bound with
  | .leave => return .upToDate vs.1 vs.2
  | .warn => do
    Traced.warn .reconciliation
      ("an incompatible " ++ target ++ " (" ++ vs.1.text ++ " < " ++ vs.2.text ++ ") was loaded from " ++ system.text ++
        " before this guard ran, most likely by another loader; runtime link errors may occur")
    return .alreadyBound vs.1 vs.2
  | .load => do
    Traced.call (.load shipped)
    match h.load shipped with
    | .ok () => return .loaded shipped vs.1 vs.2
    | .error e => do
      Traced.warn .reconciliation (e.message ++ "; runtime link errors may occur")
      return .loadFailed shipped e.message

/-- Compares the two copies, which are files, and acts on the result. -/
def compare (h : Host) (target family : String) (system shipped : Path) (bound : Bool) : Traced HostCall Outcome := do
  match ← h.versions family system shipped with
  | .error e => do
    Traced.warn .reconciliation
      (e.message ++ "; cannot compare " ++ system.text ++ " with " ++ shipped.text ++ ", runtime link errors may occur")
    return .indeterminate
  | .ok vs => h.act target system shipped bound vs

/-- Reconciles the system's copy of the target with the shipped one. -/
def reconcile (h : Host) (target family : String) (shipped : Path) : Traced HostCall Outcome := do
  let (found, bound) ← h.systemCopy target
  let shippedOk ← h.checkShipped target shipped
  match ← h.checkSystem target found, shippedOk with
  | some system, true => h.compare target family system shipped bound
  | _, _ => return .indeterminate

end Host

end LibraryGuard
