import LibraryGuard.Error

/-!
# Choosing between the shipped library and the copies that a search finds

Each path that the linker is about to try is accepted, rejected, or replaced by the shipped library. The shipped library
carries a bar, the version that a copy has to reach; an accepted copy becomes the bar, so the bar never falls.
-/

namespace LibraryGuard

/-- The part of the linker's search that a candidate comes from. -/
inductive SearchOrigin where
  | requested | libraryPath | runPath | cache | builtIn | secure
  deriving DecidableEq, Repr

/-- The part of the search that a flag stands for. -/
def SearchOrigin.ofFlag? : UInt32 → Option SearchOrigin
  | 0x01 => some .requested
  | 0x02 => some .libraryPath
  | 0x04 => some .runPath
  | 0x08 => some .cache
  | 0x40 => some .builtIn
  | 0x80 => some .secure
  | _ => none

/-- What to do with a candidate. -/
inductive Verdict where
  | accept
  | reject
  | redirect (path : Path)
  deriving DecidableEq, Repr

/-- The shipped library, and the version that a copy has to reach to be accepted. -/
structure ShippedLibrary where
  path : Path
  bar : Version
  deriving DecidableEq, Repr

namespace ShippedLibrary

/-- The shipped library at a path, with its own version as the bar. -/
def openAt (files : Files) (path : Path) (family : String) : Logged (Except GuardError ShippedLibrary) := do
  return (← files.newestVersion path family).map (ShippedLibrary.mk path)

/-- Judges a candidate. Its version is asked for only when it is a file with a directory part and the target's name, which the
executable's own lists did not give. -/
def selectWith (s : ShippedLibrary) (files : Files) (candidate : Path) (origin : SearchOrigin) (target : String)
    (versionOf : Path → Logged Version) : Traced Path (Verdict × ShippedLibrary) := do
  if !candidate.hasDirectory || !candidate.isNamed target then return (.accept, s)
  if origin = .runPath then return (.reject, s)
  if !files.isFile candidate then return (.accept, s)
  Traced.call candidate
  let v ← versionOf candidate
  if v < s.bar then return (.redirect s.path, s)
  return (.accept, { s with bar := v })

/-- The version of a candidate, with a warning and `0.0.0` for one that cannot be read. -/
def candidateVersion (files : Files) (family : String) (path : Path) : Logged Version := do
  match ← files.newestVersion path family with
  | .ok v => return v
  | .error e => do
    Logged.warn .selection (e.message ++ "; treating " ++ path.text ++ " as 0.0.0")
    return .zero

/-- Judges a candidate by the version that its file defines. -/
def select (s : ShippedLibrary) (files : Files) (candidate : Path) (origin : SearchOrigin) (target family : String) :
    Logged (Verdict × ShippedLibrary) :=
  (s.selectWith files candidate origin target (candidateVersion files family)).logged

end ShippedLibrary

end LibraryGuard
