import LibraryGuard.Config.Fault
import LibraryGuard.Elf.NewestVersion
import LibraryGuard.Files

/-!
# Errors of the guard

Every component reports its failures as one of these. Inside the guard they become warnings; only the command line shows them.
-/

namespace LibraryGuard

/-- A failure of a component of the guard. -/
inductive GuardError where
  /-- The place of a library that is mapped cannot be told. -/
  | resolution (reason : String)
  /-- A file is no image, or no image with version definitions. -/
  | format (path : Path) (cause : Elf.FormatError)
  /-- The worker that asks for the system's copy failed. -/
  | probe (reason : String)
  /-- The program that lists dependencies failed. -/
  | lister (path : Path) (reason : String)
  /-- The linker did not load a library. -/
  | load (path : Path) (reason : String)
  | unreadable (path : Path) (cause : AccessFault)
  | config (cause : ConfigFault)
  /-- There is no linker to ask. -/
  | unsupported (reason : String)
  deriving Repr

/-- The message of an error. -/
def GuardError.message : GuardError → String
  | .resolution reason => "failed to resolve library path: " ++ reason
  | .format path cause => "cannot read version definitions from " ++ path.text ++ ": " ++ cause.message
  | .probe reason => "system library probe failed: " ++ reason
  | .lister path reason => "dependency listing failed for " ++ path.text ++ ": " ++ reason
  | .load path reason => "failed to load " ++ path.text ++ ": " ++ reason
  | .unreadable path cause => "failed to read " ++ path.text ++ ": " ++ cause.message
  | .config cause => "invalid guard configuration: " ++ cause.message
  | .unsupported reason => "unsupported platform: " ++ reason

/-- The newest version of a family that the file at a path defines. -/
def Files.newestVersion (files : Files) (path : Path) (family : String) : Logged (Except GuardError Version) :=
  match files.read path with
  | .error cause => pure (.error (.unreadable path cause))
  | .ok image => do return (← Elf.newestVersion image family).mapError (.format path)

end LibraryGuard
