import LibraryGuard.Decimal.Shortest
import LibraryGuard.Text.Quoted
import LibraryGuard.Toml.Value

/-!
# What can be wrong with a configuration

A configuration is a table with nine known keys. A text that is no document has no message of its own; otherwise the first
entry that has an unknown key or a value of the wrong kind is named, with what was found and what is expected.
-/

namespace LibraryGuard

/-- The settings of a configuration. -/
inductive Setting where
  | target | versionFamily | shipped | lister | probeProgram | probeArguments | probeTimeout | probeHidden | dependencyDepth
  deriving DecidableEq, Repr

namespace Setting

/-- All settings, in the order in which they are listed. -/
def all : List Setting :=
  [.target, .versionFamily, .shipped, .lister, .probeProgram, .probeArguments, .probeTimeout, .probeHidden,
    .dependencyDepth]

/-- The key of a setting. -/
def key : Setting → String
  | .target => "target"
  | .versionFamily => "version_prefix"
  | .shipped => "shipped"
  | .lister => "lister"
  | .probeProgram => "probe_program"
  | .probeArguments => "probe_args"
  | .probeTimeout => "probe_timeout_ms"
  | .probeHidden => "probe_strip_env"
  | .dependencyDepth => "max_dependency_depth"

/-- The setting with a key. -/
def ofKey? (k : String) : Option Setting := all.find? (·.key = k)

end Setting

/-- What an entry can be expected to hold. -/
inductive Expectation where
  | string | path | sequence | milliseconds | count
  deriving DecidableEq, Repr

/-- The words for an expectation. -/
def Expectation.words : Expectation → String
  | .string => "a string"
  | .path => "path string"
  | .sequence => "a sequence"
  | .milliseconds => "u64"
  | .count => "usize"

/-- The words for a value that was not expected. A date or a time counts as a map. -/
def Toml.Value.words : Toml.Value → String
  | .string s => "string " ++ Text.quoted s
  | .integer n => "integer `" ++ toString n ++ "`"
  | .float x => "floating point `" ++ x.text ++ "`"
  | .boolean b => "boolean `" ++ toString b ++ "`"
  | .array _ => "sequence"
  | .moment _ | .table _ => "map"

/-- What is wrong with a configuration. -/
inductive ConfigFault where
  | notDocument
  | unknownKey (key : String)
  | wrongKind (found : Toml.Value) (expected : Expectation)
  | outOfRange (found : Int) (expected : Expectation)
  deriving Repr

/-- The message of a fault. -/
def ConfigFault.message : ConfigFault → String
  | .notDocument => "not a TOML document"
  | .unknownKey k =>
    "unknown field `" ++ k ++ "`, expected one of " ++ ", ".intercalate (Setting.all.map fun s => "`" ++ s.key ++ "`")
  | .wrongKind found expected => "invalid type: " ++ found.words ++ ", expected " ++ expected.words
  | .outOfRange found expected => "invalid value: integer `" ++ toString found ++ "`, expected " ++ expected.words

end LibraryGuard
