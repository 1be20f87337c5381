import LibraryGuard.CommandLine.Form

/-!
# The help of the commands

The help says what a command is for, how it is used, and what its argument and its options are, in two columns.
-/

namespace LibraryGuard.CommandLine

/-- A line of a list: what is described, and the description. -/
abbrev Entry := String × String

/-- The lines of a list, with the descriptions below each other. -/
def twoColumns (entries : List Entry) : String :=
  let width := (entries.map (·.1.length)).foldl max 0
  String.join (entries.map fun (left, right) =>
    left ++ String.ofList (List.replicate (width - left.length + 2) ' ') ++ right ++ "\n")

/-- A list below its heading. -/
def titled (heading : String) (entries : List Entry) : String :=
  if entries.isEmpty then "" else "\n" ++ heading ++ ":\n" ++ twoColumns entries

/-- A name as it stands for a value. -/
def placeholder (name : String) : String :=
  "<" ++ String.ofList (name.toList.map fun c => if c = '-' then '_' else c.toUpper) ++ ">"

/-- An option as it is written. -/
def OptionForm.usage (o : OptionForm) : String :=
  "--" ++ o.name ++ (if o.kind.isSome then " " ++ placeholder o.name else "")

/-- The description of an option. -/
def OptionForm.entry (o : OptionForm) : Entry :=
  let default := (o.default.map fun d => "[default: " ++ d ++ "]").toList
  let possible := if o.kind = some .origin then
    ["[possible values: " ++ ", ".intercalate (originNames.map (·.1)) ++ "]"] else []
  ("      " ++ o.usage, " ".intercalate ((if o.help = "" then [] else [o.help]) ++ default ++ possible))

/-- The option that asks for help. -/
def helpEntry : Entry := ("  -h, --help", "Print help")

/-- The help of a command. -/
def Form.help (f : Form) : String :=
  let required := (f.options.filter (·.isRequired)).map fun o => " " ++ o.usage
  let argument := f.argument.toList
  f.about ++ "\n\nUsage: " ++ programName ++ " " ++ f.name ++ " [OPTIONS]" ++ String.join required ++
    String.join (argument.map fun a => " " ++ placeholder a.name) ++ "\n" ++
    titled "Arguments" (argument.map fun a => ("  " ++ placeholder a.name, a.help)) ++
    titled "Options" (f.options.map OptionForm.entry ++ [helpEntry])

/-- What the command for help is for. -/
def aboutHelp : String := "Print this message or the help of the given subcommand(s)"

/-- The help of the program. -/
def programHelp : String :=
  "Runtime libstdc++ compatibility guard\n\nUsage: " ++ programName ++ " [COMMAND]\n" ++
    titled "Commands" (Verb.all.map (fun v => ("  " ++ v.form.name, v.form.about)) ++ [("  help", aboutHelp)]) ++
    titled "Options" [helpEntry, ("  -V, --version", "Print version")]

/-- The help of the command for help. -/
def helpHelp : String := aboutHelp ++ "\n\nUsage: " ++ programName ++ " help [COMMAND]\n"

end LibraryGuard.CommandLine
