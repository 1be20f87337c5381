import LibraryGuard.Bytes
import LibraryGuard.Path
import LibraryGuard.Text.Utf8

/-!
# Files as the guard sees them

The guard asks three things about a path: whether it leads to a regular file, whether it leads to anything, and what the file
there holds. `Files` is a state of the file system as the answers to these; nothing is assumed of them. A refused look at a
file names its cause.
-/

namespace LibraryGuard

/-- Why a file cannot be looked at, or a program not be started. -/
inductive AccessFault where
  | missing | notPermitted | notProgram | notDirectory | isDirectory | nameTooLong | tooManyLinks
  /-- A name with a NUL character, which no file has. -/
  | nulInName
  /-- A program or an argument with a NUL character, which no process can be given. -/
  | nulInCommand
  /-- Content that is not UTF-8, where text is asked for. -/
  | notText
  deriving DecidableEq, Repr

/-- The words for a fault, with the system's number for it where it has one. -/
def AccessFault.message : AccessFault → String
  | .missing => "No such file or directory (os error 2)"
  | .notProgram => "Exec format error (os error 8)"
  | .notPermitted => "Permission denied (os error 13)"
  | .notDirectory => "Not a directory (os error 20)"
  | .isDirectory => "Is a directory (os error 21)"
  | .nameTooLong => "File name too long (os error 36)"
  | .tooManyLinks => "Too many levels of symbolic links (os error 40)"
  | .nulInName => "file name contained an unexpected NUL byte"
  | .nulInCommand => "nul byte found in provided data"
  | .notText => "stream did not contain valid UTF-8"

/-- A state of the file system. -/
structure Files where
  /-- Whether a path leads to a regular file. -/
  isFile : Path → Bool
  /-- Whether a path leads to anything. -/
  isPresent : Path → Bool
  /-- The content of the file that a path leads to. -/
  read : Path → Except AccessFault Bytes

/-- The text of the file that a path leads to. -/
def Files.readText (files : Files) (path : Path) : Except AccessFault String := do
  let content ← files.read path
  match Text.Utf8.decode content.toList with
  | some s => return String.ofList s
  | none => .error .notText

end LibraryGuard
