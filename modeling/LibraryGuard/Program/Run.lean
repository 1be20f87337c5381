import LibraryGuard.Environment
import LibraryGuard.Path

/-!
# What a program does, seen from outside

A program that is started writes chunks of bytes to two streams at certain times, and may end. A stream closes when the last
process that holds it ends, which may be later than the program itself. Times are milliseconds from the start.
-/

namespace LibraryGuard

/-- How a program ended. -/
inductive Ending where
  | exited (code : Nat)
  | killed (signal : Nat)
  deriving DecidableEq, Repr

/-- The names of the signals from one on. -/
def signalNames : List String :=
  ["SIGHUP", "SIGINT", "SIGQUIT", "SIGILL", "SIGTRAP", "SIGABRT", "SIGBUS", "SIGFPE", "SIGKILL", "SIGUSR1", "SIGSEGV",
    "SIGUSR2", "SIGPIPE", "SIGALRM", "SIGTERM", "SIGSTKFLT", "SIGCHLD", "SIGCONT", "SIGSTOP", "SIGTSTP", "SIGTTIN",
    "SIGTTOU", "SIGURG", "SIGXCPU", "SIGXFSZ", "SIGVTALRM", "SIGPROF", "SIGWINCH", "SIGIO", "SIGPWR", "SIGSYS"]

namespace Ending

/-- Whether the program ended well. -/
def isSuccess (e : Ending) : Bool := e = .exited 0

/-- The words for an ending. -/
def text : Ending → String
  | .exited code => "exit status: " ++ toString code
  | .killed signal =>
    "signal: " ++ toString signal ++ " (" ++ signalNames.getD (signal - 1) "" ++ ")"

end Ending

/-- Bytes that are written at a time. -/
structure Chunk where
  time : Nat
  bytes : List UInt8
  deriving DecidableEq, Repr

/-- What is written to a stream, in order of time, and when it closes if it does. -/
structure Stream where
  chunks : List Chunk := []
  closed : Option Nat := none
  deriving DecidableEq, Repr

/-- All that is written to a stream. -/
def Stream.content (s : Stream) : List UInt8 := s.chunks.flatMap (·.bytes)

/-- A run of a program: when and how it ends, if it does, and its two streams. -/
structure ProgramRun where
  ending : Option (Nat × Ending)
  out : Stream
  err : Stream
  deriving DecidableEq, Repr

/-- A program, what it is given, and the variables that it sees. -/
structure Invocation where
  program : Path
  arguments : List String
  environment : Environment

end LibraryGuard
