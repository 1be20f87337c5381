import LibraryGuard.Program.Run
import LibraryGuard.Shell.Pattern
import LibraryGuard.Shell.Script
import LibraryGuard.Shell.Tools

/-!
# The state of a shell

A shell has parameters, descriptors that lead to pipes, and a clock. What is written is kept with its time and the pipe it
went to. A process holds the pipes that its descriptors lead to until it ends, and a pipe closes when its last holder ends.
An action changes the state and may be stopped: by an exit, a signal, a jump out of a loop, or because it never ends.
-/

namespace LibraryGuard.Shell

/-- Where a descriptor leads. -/
inductive Sink where
  | pipe (number : Nat)
  | nowhere
  deriving DecidableEq, Repr

/-- What can be read from a descriptor, and when it is there. -/
structure Source where
  content : List Char := []
  readyAt : Nat := 0

/-- The state of a shell. -/
structure State where
  name : List Char
  arguments : List (List Char)
  values : List (List Char × List Char)
  exported : List (List Char)
  functions : List (List Char × Command) := []
  /-- The code that the last command ended with. -/
  status : Nat := 0
  /-- The time, in milliseconds. -/
  now : Nat := 0
  /-- The number of line ends in the script. -/
  lineCount : Nat := 0
  /-- The line of the command that runs. -/
  line : Nat := 1
  /-- What can still be read from each source. It is shared by all processes. -/
  sources : List (Nat × Source) := []
  /-- The source that the input comes from. -/
  input : Nat := 0
  out : Sink := .pipe 1
  err : Sink := .pipe 2
  written : Array (Nat × Chunk) := #[]
  /-- Until when pipes are held by processes that have ended; for ever if there is no time. -/
  holds : List (Nat × Option Nat) := []
  nextPipe : Nat := 3
  /-- The jobs in the background, latest first, and when they end. -/
  jobs : List (Nat × Option Nat) := []
  tree : FileTree := {}
  /-- Whether a command that does not end well ends the shell. -/
  isStrict : Bool := false
  /-- Whether a parameter that is unset ends the shell. -/
  isExact : Bool := false
  /-- What the variables of the function that runs were before it. -/
  locals : Option (List (List Char × Option (List Char))) := none
  /-- The script that is run at the end. -/
  atExit : List Char := []
  /-- The signals that are ignored. -/
  ignored : List Nat := []

/-- Why an action stops before its end. -/
inductive Stop where
  | exit
  | signal (number : Nat)
  | leave (loops : Nat)
  | next (loops : Nat)
  | return_
  | endless
  deriving DecidableEq, Repr

/-- An action on the state of a shell. -/
abbrev Act := ExceptT Stop (StateM State)

/-- The number of the shell's process. -/
def mainProcess : Nat := 4000

/-- Writes to a sink. -/
def writeTo (sink : Sink) (s : List Char) : Act Unit :=
  match sink with
  | .nowhere => pure ()
  | .pipe n =>
    if s.isEmpty then pure ()
    else modify fun st => { st with written := st.written.push (n, ⟨st.now, bytesOf s⟩) }

/-- Writes to the first descriptor for output. -/
def put (s : List Char) : Act Unit := do writeTo (← get).out s

/-- Writes to the descriptor for complaints. -/
def complain (s : List Char) : Act Unit := do writeTo (← get).err s

/-- Sets the code that the last command ended with. -/
def setStatus (n : Nat) : Act Unit := modify fun st => { st with status := n % 256 }

/-- Sets a variable. -/
def setVariable (n v : List Char) : Act Unit :=
  modify fun st => { st with values := (n, v) :: st.values.filter (·.1 ≠ n) }

/-- The state with the variables of a function as they were before it. -/
def State.forgetLocals (st : State) : State :=
  let others := st.values
  { st with values := (st.locals.getD []).foldl (fun vs (n, v) =>
      (v.map fun v => (n, v)).toList ++ vs.filter (·.1 ≠ n)) others }

/-- The variables that programs see. -/
def State.environment (st : State) : List (List Char × List Char) :=
  st.values.filter fun (n, _) => st.exported.contains n

/-- The characters that separate fields. -/
def State.separators (st : State) : List Char := (st.values.lookup "IFS".toList).getD [' ', '\t', '\n']

/-- The value of a parameter that is no list. -/
def State.parameter? (st : State) (n : List Char) : Option (List Char) :=
  match n with
  | ['?'] => some (toString st.status).toList
  | ['#'] => some (toString st.arguments.length).toList
  | ['$'] => some (toString mainProcess).toList
  | ['!'] => st.jobs.head?.map fun (p, _) => (toString p).toList
  | ['-'] => some []
  | ['@'] | ['*'] => if st.arguments.isEmpty then none else some (spaced st.arguments)
  | n =>
    match natural? n with
    | some 0 => some st.name
    | some (k + 1) => st.arguments[k]?
    | none => st.values.lookup n

/-- What can be read from the input. -/
def State.source (st : State) : Source := (st.sources.lookup st.input).getD {}

/-- The state with something else to be read from the input. -/
def State.setSource (st : State) (s : Source) : State :=
  { st with sources := (st.input, s) :: st.sources.filter (·.1 ≠ st.input) }

/-- The state with a new source of input. -/
def State.withInput (st : State) (s : Source) : State :=
  { st with sources := (st.nextPipe, s) :: st.sources, input := st.nextPipe, nextPipe := st.nextPipe + 1 }

/-- The chunks that went to a pipe, in order of time. -/
def State.chunks (st : State) (pipe : Nat) : List Chunk :=
  ((st.written.toList.filter (·.1 = pipe)).map (·.2)).mergeSort fun a b => decide (a.time ≤ b.time)

/-- When a pipe closes, if ever, that is held at least until a time. -/
def State.closing (st : State) (pipe earliest : Nat) : Option Nat :=
  (st.holds.filter (·.1 = pipe)).foldl (fun t (_, u) => do return max (← t) (← u)) (some earliest)

/-- The pipes that a process's descriptors lead to. -/
def State.heldPipes (st : State) : List Nat := [st.out, st.err].filterMap fun s => match s with
  | .pipe n => some n
  | .nowhere => none

/-- Records that a process which held the present pipes ended at the given time, if ever. -/
def State.release (st : State) (time : Option Nat) : State :=
  { st with holds := st.heldPipes.map (·, time) ++ st.holds }

/-- Does something in a process of its own, and gives what stopped it. Its parameters and descriptors are lost; what it wrote
stays, what it read is gone, and the time has passed. -/
def apart (change : State → State) (a : Act Unit) : Act (Option Stop) := do
  let before ← get
  set (change before)
  let stop ← tryCatch (do a; return none) fun e => return some e
  let after ← get
  set { before with
    written := after.written, holds := after.holds, sources := after.sources, nextPipe := after.nextPipe, now := after.now
    status := after.status }
  return stop

/-- Does something in a process of its own, and goes on unless it was killed with the whole shell or never ends. -/
def subshell (change : State → State) (a : Act Unit) : Act Unit := do
  match ← apart change a with
  | some (.signal n) => throw (.signal n)
  | some .endless => throw .endless
  | _ => return

/-- A new pipe. -/
def newPipe : Act Nat := do
  let st ← get
  set { st with nextPipe := st.nextPipe + 1 }
  return st.nextPipe

/-- Does something in a process of its own, with its output to a new pipe, and gives what it wrote and when the pipe
closed. -/
def capture (change : State → State) (a : Act Unit) : Act (List Char × Option Nat × Option Stop) := do
  let pipe ← newPipe
  let stop ← apart (fun st => { change st with out := .pipe pipe }) a
  let st ← get
  let text := (st.chunks pipe).flatMap fun c => c.bytes.map fun b => Char.ofNat b.toNat
  let closed := if stop = some .endless then none else st.closing pipe st.now
  set { st with written := st.written.filter (·.1 ≠ pipe), holds := st.holds.filter (·.1 ≠ pipe) }
  return (text, closed, stop)

/-- Does something with other descriptors. -/
def withDescriptors (change : State → State) (a : Act Unit) : Act Unit := do
  let before ← get
  set (change before)
  let stop ← tryCatch (do a; return none) fun e => return some e
  modify fun st => { st with out := before.out, err := before.err, input := before.input }
  match stop with
  | some e => throw e
  | none => return

end LibraryGuard.Shell
