import LibraryGuard.Dependency.Report
import LibraryGuard.Error

/-!
# Whether a file leads to the target

A file leads to the target if it has the target's name, or if the report about it has an edge to the target and the target
itself, taken as a path, leads to the target one level further down. Files that do not exist, files without a report and the
end of the permitted depth lead nowhere.
-/

namespace LibraryGuard.Dependency

/-- What a walk goes by: the answers of the program that lists dependencies, the target, and how deep it may go. -/
structure Walker where
  lister : Path → Except GuardError String
  target : String
  maxDepth : Nat

namespace Walker

/-- The edges that the report about a file gives. -/
def edges (w : Walker) (path : Path) : Except GuardError (List Edge) := do
  return parseReport path (← w.lister path)

/-- Walks at most so many levels down. The lister's calls are recorded. -/
def walk (w : Walker) (files : Files) : Nat → Path → Traced Path Bool
  | levels, path => do
    if path.isNamed w.target then return true
    match levels with
    | 0 => return false
    | levels + 1 =>
      if !files.isPresent path then return false
      Traced.call path
      match w.edges path with
      | .error e => do
        Traced.warn .dependencies (e.message ++ "; assuming " ++ path.text ++ " does not load " ++ w.target)
        return false
      | .ok edges =>
        if edges.any (·.leadsTo w.target) then w.walk files levels ⟨w.target⟩ else return false

/-- Whether a file leads to the target. -/
def dependsOnTarget (w : Walker) (files : Files) (path : Path) : Traced Path Bool := w.walk files w.maxDepth path

end Walker

end LibraryGuard.Dependency
