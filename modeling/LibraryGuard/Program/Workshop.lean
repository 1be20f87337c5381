import LibraryGuard.Arming
import LibraryGuard.Shell.Run

/-!
# Starting programs

A workshop has a few tools and a shell; every other program is a file that may be run and whose first line names the tool that
runs it. A program that is no such thing is not started, for a cause of the file system's.
-/

namespace LibraryGuard

/-- Whether a text has a character that no program can be given. -/
def hasNul (s : String) : Bool := s.toList.contains '\x00'

namespace Workshop

/-- The names of the tools, of the shell, and of the program that sets variables for another one. -/
def toolNames : List String := ["sh", "env"] ++ Shell.tools.map (·.1)

/-- The place where the work is done. -/
def workPlace : Place := ["tmp", "work"]

/-- The place of the installed libraries. -/
def systemPlace : Place := ["lib", "x86_64-linux-gnu"]

/-- The directories, tools and devices of a workshop. -/
def bareTree : FileTree where
  nodes :=
    [["tmp"], workPlace, ["bin"], ["usr"], ["usr", "bin"], ["usr", "lib"], ["lib"], systemPlace, ["lib64"], ["etc"],
        ["dev"], ["opt"]].map (·, .directory) ++
      toolNames.flatMap (fun n => [(["bin", n], .tool n), (["usr", "bin", n], .tool n)]) ++
      [["dev", "null"], ["dev", "zero"]].map (·, .device)
  here := workPlace

/-- How deep actions may be nested. -/
def levels : Nat := 1000

/-- The shell that a program starts with. -/
def initial (tree : FileTree) (environment : Environment) : Shell.State where
  name := []
  arguments := []
  values := environment.map fun (n, v) => (Shell.charsOfText n, Shell.charsOfText v)
  exported := environment.map fun (n, _) => Shell.charsOfText n
  tree := tree

/-- The run that an action makes. -/
def runOf (a : Shell.Act Unit) (st : Shell.State) : ProgramRun :=
  let (stop, st) := Id.run (a.run.run st)
  let ending : Option (Nat × Ending) := match stop with
    | .error .endless => none
    | .error (.signal n) => some (st.now, .killed n)
    | _ => some (st.now, .exited st.status)
  let st := st.release (ending.map (·.1))
  ⟨ending, ⟨st.chunks 1, st.closing 1 0⟩, ⟨st.chunks 2, st.closing 2 0⟩⟩

/-- How many programs may run one another. -/
def runnerLimit : Nat := 5

/-- The tool that runs the program at a path, at most so many programs away, with the arguments that come before those it is
started with. -/
def runner (tree : FileTree) : Nat → List Char → Except AccessFault (String × List (List Char))
  | 0, _ => .error .tooManyLinks
  | limit + 1, path => do
    match ← Shell.runnable tree path with
    | none => .error .notPermitted
    | some (.tool n) => .ok (n, [])
    | some (.file content) =>
      match Shell.interpreter? content with
      | none => .error .notProgram
      | some (interpreter, first) =>
        let (n, before) ← runner tree limit interpreter
        .ok (n, before ++ first ++ [path])

/-- The first path at which something stands, or the fault of the last one. -/
def firstRunner (tree : FileTree) : List (List Char) → Except AccessFault (String × List (List Char))
  | [] => .error .missing
  | path :: rest =>
    match runner tree runnerLimit path with
    | .error .missing => firstRunner tree rest
    | answer => answer

/-- Starts a program. -/
def start (tree : FileTree) (i : Invocation) : Except AccessFault ProgramRun :=
  if hasNul i.program.text || i.arguments.any hasNul then .error .nulInCommand
  else if i.program.text = "" then .error .missing
  else do
    let name := Shell.charsOfText i.program.text
    let directories := (i.environment.lookup "PATH").map Shell.charsOfText
    let (tool, first) ← firstRunner tree (Shell.programPaths directories name)
    let arguments := first ++ i.arguments.map Shell.charsOfText
    return runOf (Shell.runTool levels name tool arguments) (initial tree i.environment)

/-- The libraries that every program has mapped. -/
def residentLibraries : List String := ["libc.so.6", "libgcc_s.so.1", "ld-linux-x86-64.so.2"]

/-- The libraries that are installed. -/
def installedLibraries : List String := residentLibraries ++ ["libm.so.6", "libpthread.so.0", "libdl.so.2", "librt.so.1"]

/-- The linker of a program that was started with a search path. -/
def linker (tree : FileTree) (searchPath : String) : Linker where
  files := tree.files
  searchPath := Linker.directories searchPath
  systemDirectory := ⟨"/" ++ "/".intercalate systemPlace⟩
  installed := installedLibraries
  resident := residentLibraries

/-- The machine of a program with some variables that was started with a search path. -/
def machine (tree : FileTree) (environment : Environment) (searchPath : String) : Machine where
  files := tree.files
  start := start tree
  linker := linker tree searchPath
  environment := environment

end Workshop

end LibraryGuard
