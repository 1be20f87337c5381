import LibraryGuard.Config
import LibraryGuard.Program.Lister

/-!
# Asking a worker for the system's copy

The worker is a program that prints where it found the library. It has to end well within a time limit; then the first line
among the first 64 KiB that it writes, without the blanks at its ends, is the path. A line that is no text or blank is no
answer. Another process may keep the output open: the line is waited for up to the same time limit.
-/

namespace LibraryGuard

/-- A worker: its program and first arguments, the variables hidden from it, and its time limit in milliseconds. -/
structure Probe where
  program : Path
  arguments : List String
  hidden : List String
  timeout : Nat
  deriving DecidableEq, Repr

namespace Probe

/-- The worker that a configuration describes. -/
def ofConfig (c : Config) : Probe := ⟨c.probeProgram, c.probeArguments, c.probeHidden, c.probeTimeout⟩

/-- Why there is no answer. -/
inductive Fault where
  | cannotStart (program : Path) (cause : AccessFault)
  | late (limit : Nat)
  | failed (program : Path) (ending : Ending)
  | heldOpen (program : Path) (limit : Nat)
  | silent (program : Path)
  deriving DecidableEq, Repr

/-- The words for a fault. -/
def Fault.message : Fault → String
  | .cannotStart program cause => "cannot spawn " ++ program.text ++ ": " ++ cause.message
  | .late limit => "probe did not finish within " ++ toString limit ++ " ms"
  | .failed program ending => program.text ++ " exited with " ++ ending.text
  | .heldOpen program limit => program.text ++ " exited but its output stayed open past " ++ toString limit ++ " ms"
  | .silent program => program.text ++ " printed no library path"

/-- The number of bytes of the output that are read. -/
def readLimit : Nat := 64 * 1024

/-- The line feed. -/
def lineEnd : UInt8 := 0x0A

/-- The first line of an output, as far as it is read. -/
def firstLine (output : List UInt8) : List UInt8 := (output.take readLimit).takeWhile (· ≠ lineEnd)

/-- The answer in the output of a worker that ended. -/
def answerOf (program : Path) (ending : Ending) (output : List UInt8) : Except Fault Path :=
  if ending.isSuccess then
    match (Text.Utf8.decode (firstLine output)).map Text.trim with
    | none | some [] => .error (.silent program)
    | some line => .ok (Path.ofChars line)
  else .error (.failed program ending)

/-- The time at which the first line is known, if ever: when it ends, when as much is written as is read, or when the stream
closes. The first argument counts the bytes that are written already. -/
def knownAt? (closed : Option Nat) : Nat → List Chunk → Option Nat
  | _, [] => closed
  | before, c :: rest =>
    if readLimit ≤ before + c.bytes.length || c.bytes.contains lineEnd then some c.time
    else knownAt? closed (before + c.bytes.length) rest

/-- The answer in a run of the worker. -/
def judge (p : Probe) (run : ProgramRun) : Except Fault Path :=
  match run.ending with
  | none => .error (.late p.timeout)
  | some (time, ending) =>
    if p.timeout ≤ time then .error (.late p.timeout)
    else if ending.isSuccess && !(knownAt? run.out.closed 0 run.out.chunks).any (· < p.timeout) then
      .error (.heldOpen p.program p.timeout)
    else answerOf p.program ending run.out.content

/-- What the worker is started with for a library. -/
def invocation (p : Probe) (env : Environment) (library : String) : Invocation :=
  ⟨p.program, p.arguments ++ ["--library", library], env.hide p.hidden⟩

/-- Where the system's copy of a library is. -/
def systemPath (p : Probe) (start : Starter) (env : Environment) (library : String) : Except GuardError Path :=
  let answer : Except Fault Path :=
    match start (p.invocation env library) with
    | .error cause => .error (.cannotStart p.program cause)
    | .ok run => p.judge run
  answer.mapError fun f => .probe f.message

/-- What the worker writes to the error stream, until it is ended if it is late. -/
def complaint (p : Probe) (start : Starter) (env : Environment) (library : String) : List UInt8 :=
  match start (p.invocation env library) with
  | .error _ => []
  | .ok run =>
    if run.ending.any (·.1 < p.timeout) then run.err.content
    else (run.err.chunks.filter (·.time < p.timeout)).flatMap (·.bytes)

end Probe

end LibraryGuard
