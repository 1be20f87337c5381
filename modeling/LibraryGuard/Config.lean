import LibraryGuard.Environment
import LibraryGuard.Error
import LibraryGuard.Toml.Document

/-!
# Configuration

The built-in settings hold where nothing else is said. A document replaces those that it names, in its order: the first entry
that is wrong decides the fault. The environment names the document, and may then replace the shipped library and the probe
program; a variable that is empty counts as unset.
-/

namespace LibraryGuard

/-- The settings of the guard. -/
structure Config where
  target : String := "libstdc++.so.6"
  versionFamily : String := "GLIBCXX_"
  /-- The shipped library, or the directory that holds it. -/
  shipped : Option Path := none
  lister : Path := ⟨"ldd"⟩
  probeProgram : Path := ⟨"cxxguard"⟩
  probeArguments : List String := ["probe"]
  /-- How long the worker may take, in milliseconds. -/
  probeTimeout : Nat := 10000
  /-- The variables that the worker does not see. -/
  probeHidden : List String := ["CXXGUARD_SHIPPED", "CXXGUARD_CONFIG"]
  dependencyDepth : Nat := 4
  deriving DecidableEq, Repr

instance : Inhabited Config := ⟨{}⟩

namespace Config

/-- The name of the library that is guarded where nothing else is said. -/
def defaultTarget : String := ({} : Config).target

/-- The family of versions that is compared where nothing else is said. -/
def defaultFamily : String := ({} : Config).versionFamily

/-- A value that has to be a text. -/
def textOf (expected : Expectation) : Toml.Value → Except ConfigFault String
  | .string s => .ok s
  | v => .error (.wrongKind v expected)

/-- A value that has to be a list of texts. -/
def textsOf : Toml.Value → Except ConfigFault (List String)
  | .array vs => vs.mapM (textOf .string)
  | v => .error (.wrongKind v .sequence)

/-- A value that has to be a number from zero on. -/
def numberOf (expected : Expectation) : Toml.Value → Except ConfigFault Nat
  | .integer n => if 0 ≤ n then .ok n.toNat else .error (.outOfRange n expected)
  | v => .error (.wrongKind v expected)

/-- The configuration with one setting replaced. -/
def set (c : Config) (setting : Setting) (v : Toml.Value) : Except ConfigFault Config :=
  match setting with
  | .target => do return { c with target := ← textOf .string v }
  | .versionFamily => do return { c with versionFamily := ← textOf .string v }
  | .shipped => do return { c with shipped := some ⟨← textOf .path v⟩ }
  | .lister => do return { c with lister := ⟨← textOf .path v⟩ }
  | .probeProgram => do return { c with probeProgram := ⟨← textOf .path v⟩ }
  | .probeArguments => do return { c with probeArguments := ← textsOf v }
  | .probeTimeout => do return { c with probeTimeout := ← numberOf .milliseconds v }
  | .probeHidden => do return { c with probeHidden := ← textsOf v }
  | .dependencyDepth => do return { c with dependencyDepth := ← numberOf .count v }

/-- The configuration with the setting of one entry replaced. -/
def setEntry (c : Config) (entry : String × Toml.Value) : Except ConfigFault Config :=
  match Setting.ofKey? entry.1 with
  | some setting => c.set setting entry.2
  | none => .error (.unknownKey entry.1)

/-- The configuration that the entries of a document describe. -/
def ofEntries (entries : List (String × Toml.Value)) : Except ConfigFault Config := entries.foldlM setEntry {}

/-- The configuration that a document describes. -/
def ofText (text : String) : Except GuardError Config :=
  match Toml.read? text with
  | none => .error (.config .notDocument)
  | some entries => (ofEntries entries).mapError .config

/-- The configuration in the file at a path. -/
def load (files : Files) (path : Path) : Except GuardError Config := do
  ofText (← (files.readText path).mapError (.unreadable path))

/-- The configuration with the shipped library and the probe program that the environment names. -/
def withOverrides (c : Config) (env : Environment) : Config :=
  { c with
    shipped := ((env.get? "CXXGUARD_SHIPPED").map Path.mk).or c.shipped
    probeProgram := ((env.get? "CXXGUARD_PROBE").map Path.mk).getD c.probeProgram }

/-- The configuration that an environment describes. -/
def ofEnvironment (files : Files) (env : Environment) : Except GuardError Config := do
  let base ← match env.get? "CXXGUARD_CONFIG" with
    | some path => load files ⟨path⟩
    | none => .ok {}
  return base.withOverrides env

end Config

end LibraryGuard
