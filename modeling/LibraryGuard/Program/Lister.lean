import LibraryGuard.Error
import LibraryGuard.Program.Run
import LibraryGuard.Text.Blank

/-!
# Asking a program for dependencies

The lister is a program that is given a file and reports on it. What it writes counts only if it ends well; otherwise its
ending and its complaint are the reason of the error. Bytes that are no text are read with replacement characters.
-/

namespace LibraryGuard

/-- How programs are started. -/
abbrev Starter := Invocation → Except AccessFault ProgramRun

namespace Lister

/-- Why there is no report. -/
inductive Fault where
  | cannotRun (program : Path) (cause : AccessFault)
  | failed (program : Path) (ending : Ending) (complaint : String)
  /-- The program never ends. -/
  | unending (program : Path)
  deriving DecidableEq, Repr

/-- The words for a fault. -/
def Fault.message : Fault → String
  | .cannotRun program cause => "cannot run " ++ program.text ++ ": " ++ cause.message
  | .failed program ending complaint => program.text ++ " exited with " ++ ending.text ++ ": " ++ complaint
  | .unending program => program.text ++ " does not end"

/-- The text of bytes. -/
def textOf (bytes : List UInt8) : String := String.ofList (Text.Utf8.decodeLossy bytes)

/-- The report in a run of the lister. -/
def report (program : Path) (run : ProgramRun) : Except Fault String :=
  match run.ending with
  | none => .error (.unending program)
  | some (_, ending) =>
    if ending.isSuccess then .ok (textOf run.out.content)
    else
      .error (.failed program ending (String.ofList (Text.trim (Text.Utf8.decodeLossy run.err.content))))

/-- The report of a program about a file. -/
def list (start : Starter) (env : Environment) (program path : Path) : Except GuardError String :=
  let answer : Except Fault String :=
    match start ⟨program, [path.text], env⟩ with
    | .error cause => .error (.cannotRun program cause)
    | .ok run => report program run
  answer.mapError fun f => .lister path f.message

end Lister

end LibraryGuard
