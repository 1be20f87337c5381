import LibraryGuard.CommandLine.Inspection
import LibraryGuard.Program.Workshop

/-!
# The command line program

The files that a request looks at are taken over into a tree, in a few rounds, and the request is answered over that tree.
-/

namespace LibraryGuard.CommandLine

/-- Takes over what stands at a path. -/
def takeOver (tree : FileTree) (path : Path) : IO FileTree := do
  if tree.isPresent path then return tree
  try
    let content ← IO.FS.readBinFile path.text
    return tree.put path (.file content.data true)
  catch e =>
    match e with
    | .noFileOrDirectory .. => return tree
    | _ => return tree.put path .directory

/-- The variables that matter. -/
def variableNames : List String := ["CXXGUARD_CONFIG", "CXXGUARD_SHIPPED", "CXXGUARD_PROBE", "LD_LIBRARY_PATH"]

/-- The number of rounds in which files are taken over. -/
def rounds : Nat := 4

/-- Answers the arguments of the program over the files that they lead to. -/
def answer (arguments : List String) : IO (Logged Reply) := do
  let mut environment : Environment := []
  for name in variableNames do
    if let some value ← IO.getEnv name then environment := (name, value) :: environment
  let searchPath := (environment.lookup "LD_LIBRARY_PATH").getD ""
  let mut tree := Workshop.bareTree
  if let .ok request := Request.read arguments then
    for _ in List.range rounds do
      for path in request.paths (Workshop.machine tree environment searchPath) do
        tree ← takeOver tree path
  return reply (Workshop.machine tree environment searchPath) arguments

end LibraryGuard.CommandLine

/-- Answers the arguments, with warnings and errors on the error stream. -/
def main (arguments : List String) : IO UInt32 := do
  let answer ← LibraryGuard.CommandLine.answer arguments
  for w in answer.warnings do
    IO.eprintln (LibraryGuard.CommandLine.programName ++ ": warning: " ++ w.text)
  IO.print answer.value.output
  IO.eprint answer.value.complaint
  return answer.value.code.toUInt32
