import LibraryGuard.Dependency.Walk
import LibraryGuard.Guard
import LibraryGuard.Linker
import LibraryGuard.Program.Probe
import LibraryGuard.Search.SearchList

/-!
# Arming the guard

A guard is armed with a shipped library and a configuration, and adds one hook to those of the host. From the environment it
is armed only if the configuration there can be read and a shipped library is named in it or found through the search lists of
the running executable; otherwise it says why not and adds nothing.
-/

namespace LibraryGuard

/-- What the guard works with: files, programs, the linker, its environment, and the file of the running executable. -/
structure Machine where
  files : Files
  start : Starter
  linker : Linker
  environment : Environment
  executable : Option Path := none

namespace Machine

/-- The walk over dependencies by a program that lists them. -/
def walker (m : Machine) (lister : Path) (target : String) (maxDepth : Nat) : Dependency.Walker :=
  ⟨Lister.list m.start m.environment lister, target, maxDepth⟩

/-- The linker and the probe of a machine under a configuration. -/
def host (m : Machine) (c : Config) : Host where
  files := m.files
  isMapped name := (m.linker.find? name).isSome
  resolve := m.linker.resolve
  probe := (Probe.ofConfig c).systemPath m.start m.environment
  load path := (m.linker.load path).map fun _ => ()

/-- The hook of a guard under a configuration. -/
def interceptor (m : Machine) (c : Config) : Interceptor where
  target := c.target
  check path := do
    let w := m.walker c.lister c.target c.dependencyDepth
    return some (← (w.dependsOnTarget m.files path).mapCalls .list)
  reconcile shipped := do
    return some (← ((m.host c).reconcile c.target c.versionFamily shipped).mapCalls .host)

/-- A guard that is armed: its state, and its own hook among those of the host. -/
structure Armed where
  state : GuardState
  interceptor : Interceptor

/-- Arms a guard and adds its hook to those of the host. -/
def arm (m : Machine) (hooks : List Interceptor) (shipped : Path) (c : Config) : Armed × List Interceptor :=
  let i := m.interceptor c
  (⟨⟨shippedLibrary m.files shipped c.target, true⟩, i⟩, hooks ++ [i])

/-- The library that the running executable's search lists lead to. -/
def shippedBeside (m : Machine) (target : String) : Logged (Option Path) :=
  match m.executable with
  | none => pure none
  | some executable =>
    match shippedFor m.files executable target with
    | .ok found => pure found
    | .error e => do
      Logged.warn .arming e.message
      return none

/-- Arms a guard as the environment says, if it does. -/
def armFromEnvironment (m : Machine) (hooks : List Interceptor) : Logged (Option Armed × List Interceptor) :=
  match Config.ofEnvironment m.files m.environment with
  | .error e => do
    Logged.warn .arming (e.message ++ "; " ++ Config.defaultTarget ++ " guard not armed")
    return (none, hooks)
  | .ok c => do
    let shipped ← match c.shipped with
      | some path => pure (some path)
      | none => m.shippedBeside c.target
    match shipped with
    | some path =>
      let (armed, hooks) := m.arm hooks path c
      return (some armed, hooks)
    | none => do
      Logged.warn .arming
        ("no shipped " ++ c.target ++ " configured or found on the executable's search path; guard not armed")
      return (none, hooks)

end Machine

end LibraryGuard
