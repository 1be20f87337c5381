import LibraryGuard.Arming
import LibraryGuard.CommandLine.Request

/-!
# Answering a request

A request is answered over a machine. The answer is written to the output and an error to the other stream, with which the
program ends badly. Arguments that are no request end it with a code of their own.
-/

namespace LibraryGuard.CommandLine

/-- What the program leaves behind: the code that it ends with, and what it writes to its two streams. -/
structure Reply where
  code : Nat
  output : String := ""
  complaint : String := ""
  deriving DecidableEq, Repr

/-- An edge as a line. -/
def edgeLine (e : Dependency.Edge) : String :=
  e.name ++ " => " ++ (e.resolved.elim "(unresolved)" (·.text)) ++ "\n"

/-- The edges of a file; none, with a warning, where there is no report. -/
def edgesOf (w : Dependency.Walker) (file : Path) : Logged (List Dependency.Edge) :=
  match w.edges file with
  | .ok edges => return edges
  | .error e => do
    Logged.warn .dependencies e.message
    return []

/-- The edges of a file, and whether it leads to the target. -/
def dependencyLines (w : Dependency.Walker) (files : Files) (file : Path) : Logged String := do
  let edges ← edgesOf w file
  let leads ← (w.dependsOnTarget files file).logged
  return String.join (edges.map edgeLine) ++ w.target ++ ": " ++ toString leads ++ "\n"

/-- A verdict on a candidate as a line. -/
def verdictLine (candidate : Path) : Verdict → String
  | .accept => "accept " ++ candidate.text ++ "\n"
  | .reject => "reject " ++ candidate.text ++ "\n"
  | .redirect path => "redirect " ++ path.text ++ "\n"

/-- Judges a candidate against the shipped library. -/
def selectLine (files : Files) (candidate shipped : Path) (origin : SearchOrigin) (target family : String) :
    Logged (Except GuardError String) := do
  match ← ShippedLibrary.openAt files (shippedLibrary files shipped target) family with
  | .error e => return .error e
  | .ok s => return .ok (verdictLine candidate (← s.select files candidate origin target family).1)

/-- The place of the shipped library that an executable leads to, as a line. -/
def locateLine (files : Files) (executable : Path) (target : String) : Except GuardError String := do
  match ← shippedFor files executable target with
  | some path => return path.text ++ "\n"
  | none => .error (.resolution (target ++ " not found on the RUNPATH/RPATH of " ++ executable.text))

/-- What the workers of a run write to the error stream. -/
def workerComplaints (m : Machine) (c : Config) (calls : List HostCall) : String :=
  Lister.textOf (calls.flatMap fun call => match call with
    | .probe name => (Probe.ofConfig c).complaint m.start m.environment name
    | _ => [])

/-- Reconciles under a configuration. -/
def checkReply (m : Machine) (c : Config) (shipped : Path) : Logged Reply :=
  let run := (m.host c).reconcile c.target c.versionFamily (shippedLibrary m.files shipped c.target)
  ⟨⟨0, run.value.text ++ "\n", workerComplaints m c run.calls⟩, run.warnings⟩

/-- The reply to an answer. -/
def Reply.ofAnswer : Except GuardError String → Reply
  | .ok text => ⟨0, text, ""⟩
  | .error e => ⟨1, "", programName ++ ": error: " ++ e.message ++ "\n"⟩

/-- Answers a request. -/
def Request.answer (m : Machine) : Request → Logged Reply
  | .probe library => return .ofAnswer ((m.linker.locate library).map (·.text ++ "\n"))
  | .version file family isPacked => do
    let v ← m.files.newestVersion file family
    return .ofAnswer (v.map fun v => (if isPacked then v.packedHex else v.text) ++ "\n")
  | .dependencies file target lister maxDepth => do
    return .ofAnswer (.ok (← dependencyLines (m.walker lister target maxDepth) m.files file))
  | .locate executable target => return .ofAnswer (locateLine m.files executable target)
  | .select candidate shipped origin target family => do
    return .ofAnswer (← selectLine m.files candidate shipped origin target family)
  | .check shipped config =>
    let c := match config with
      | some path => Config.load m.files path
      | none => Config.ofEnvironment m.files m.environment
    match c with
    | .ok c => checkReply m c shipped
    | .error e => return .ofAnswer (.error e)

/-- The reply where nothing is done. -/
def Stop.reply : Stop → Reply
  | .help text => ⟨0, text, ""⟩
  | .version => ⟨0, programName ++ " " ++ programVersion ++ "\n", ""⟩
  | .misuse => ⟨2, "", programName ++ ": error: the arguments are not understood; try --help\n"⟩

/-- What the program does with its arguments. -/
def reply (m : Machine) (arguments : List String) : Logged Reply :=
  match Request.read arguments with
  | .ok r => r.answer m
  | .error stop => return stop.reply

end LibraryGuard.CommandLine
