import LibraryGuard.CommandLine.Reply

/-!
# What a request looks at

The answer to a request depends on the files at a few paths. Some of these are only known once others have been read, so the
paths are told from what a machine knows so far.
-/

namespace LibraryGuard.CommandLine

/-- The paths at which the linker may take a library. -/
def libraryPaths (l : Linker) (library : String) : List Path :=
  if library.toList.contains '/' then [⟨library⟩] else l.searchPath.map fun d => d.join ⟨library⟩

/-- The candidates that the search lists of an executable lead to. -/
def listedPaths (files : Files) (executable : Path) (target : String) : List Path :=
  match files.read executable with
  | .error _ => []
  | .ok image =>
    match Elf.searchLists image with
    | .error _ => []
    | .ok lists =>
      (lists.runpaths ++ lists.rpaths).flatMap fun list => SearchList.candidates list executable.origin target

/-- The paths at which the shipped library may be. -/
def shippedPaths (shipped : Path) (target : String) : List Path := [shipped, shipped.join ⟨target⟩]

/-- The paths that matter under a configuration: the copies, the worker, and what the worker names. -/
def configuredPaths (m : Machine) (c : Config) (shipped : Path) : List Path :=
  let found := match (Probe.ofConfig c).systemPath m.start m.environment c.target with
    | .ok path => [path]
    | .error _ => []
  c.probeProgram :: shippedPaths shipped c.target ++ libraryPaths m.linker c.target ++ found

/-- The paths that a request looks at, as far as they are known. -/
def Request.paths (m : Machine) : Request → List Path
  | .probe library => libraryPaths m.linker library
  | .version file _ _ => [file]
  | .dependencies file target lister _ => [file, ⟨target⟩, lister]
  | .locate executable target => executable :: listedPaths m.files executable target
  | .select candidate shipped _ target _ => candidate :: shippedPaths shipped target
  | .check shipped config =>
    let documents := config.toList ++ ((m.environment.get? "CXXGUARD_CONFIG").map Path.mk).toList
    let c := match config with
      | some path => Config.load m.files path
      | none => Config.ofEnvironment m.files m.environment
    documents ++ match c with
      | .ok c => configuredPaths m c shipped
      | .error _ => []

end LibraryGuard.CommandLine
