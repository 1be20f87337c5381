import LibraryGuard.CommandLine.Help

/-!
# Reading the command line

Arguments are read in order: options by their names, with the value attached or in the next argument, and everything else as
the command's argument. Behind two dashes nothing is an option. The first fault or the first call for help decides; what is
missing is only found at the end. Without a command the program probes for the library that is guarded by default. Arguments are
texts here: those that are no UTF-8 lie outside of the library.
-/

namespace LibraryGuard.CommandLine

/-- What the program is asked to do. -/
inductive Request where
  | probe (library : String)
  | version (file : Path) (family : String) (isPacked : Bool)
  | dependencies (file : Path) (target : String) (lister : Path) (maxDepth : Nat)
  | locate (executable : Path) (target : String)
  | select (candidate shipped : Path) (origin : SearchOrigin) (target family : String)
  | check (shipped : Path) (config : Option Path)
  deriving DecidableEq, Repr

/-- Why nothing is done. -/
inductive Stop where
  | help (text : String)
  | version
  /-- The arguments are no request. -/
  | misuse
  deriving DecidableEq, Repr

/-- What was given to a command: values by the names of options, and the argument. -/
structure Given where
  values : List (String × String) := []
  argument : Option String := none
  deriving DecidableEq, Repr

/-- How an argument looks. -/
inductive Shape where
  /-- Two dashes alone. -/
  | divider
  | long (name : String) (attached : Option String)
  | short (letter : Char)
  | plain
  deriving DecidableEq, Repr

/-- The shape of an argument. A single dash is plain. -/
def Shape.of (s : String) : Shape :=
  match s.toList with
  | ['-', '-'] => .divider
  | '-' :: '-' :: r =>
    match Text.cut? ['='] r with
    | some (name, value) => .long (String.ofList name) (some (String.ofList value))
    | none => .long (String.ofList r) none
  | '-' :: c :: _ => .short c
  | _ => .plain

namespace Form

/-- Adds the value of an option. -/
def addValue (o : OptionForm) (g : Given) (value : String) : Except Stop Given :=
  if (g.values.lookup o.name).isSome || !o.kind.all (·.accepts value) then .error .misuse
  else .ok { g with values := (o.name, value) :: g.values }

/-- Adds the argument. -/
def addArgument (f : Form) (g : Given) (value : String) : Except Stop Given :=
  if f.argument.isNone || g.argument.isSome || !ValueKind.path.accepts value then .error .misuse
  else .ok { g with argument := some value }

/-- Reads the arguments of a command. -/
def read (f : Form) (g : Given) : List String → Except Stop Given
  | [] => .ok g
  | a :: rest =>
    match Shape.of a with
    | .divider => rest.foldlM f.addArgument g
    | .short c => .error (if c = 'h' then .help f.help else .misuse)
    | .plain => do f.read (← f.addArgument g a) rest
    | .long "help" none => .error (.help f.help)
    | .long name attached =>
      match f.options.find? (·.name = name) with
      | none => .error .misuse
      | some o =>
        match o.kind.isSome, attached with
        | false, none => do f.read (← addValue o g "") rest
        | true, some value => do f.read (← addValue o g value) rest
        | false, some _ => .error .misuse
        | true, none =>
          match rest with
          | [] => .error .misuse
          | value :: behind =>
            if Shape.of value = .plain then do f.read (← addValue o g value) behind else .error .misuse

/-- The value of an option: what was given, or else the default. -/
def value? (f : Form) (g : Given) (name : String) : Option String :=
  (g.values.lookup name).or ((f.options.find? (·.name = name)).bind (·.default))

end Form

/-- The request that a command with what was given to it makes, unless something is missing. -/
def Verb.request? (v : Verb) (g : Given) : Option Request :=
  let value := v.form.value? g
  match v with
  | .probe => do return .probe (← value "library")
  | .version => do return .version ⟨← g.argument⟩ (← value "prefix") (g.values.lookup "packed").isSome
  | .dependencies => do
    return .dependencies ⟨← g.argument⟩ (← value "target") ⟨← value "lister"⟩
      (← count? (← value "max-depth"))
  | .locate => do return .locate ⟨← g.argument⟩ (← value "target")
  | .select => do
    return .select ⟨← g.argument⟩ ⟨← value "shipped"⟩ (← origin? (← value "origin")) (← value "target")
      (← value "prefix")
  | .check => do return .check ⟨← g.argument⟩ ((value "config").map Path.mk)

/-- Reads the arguments of the command for help. -/
def readHelp : List String → Stop
  | [] => .help programHelp
  | ["help"] => .help helpHelp
  | [name] => ((Verb.ofName? name).map fun v => Stop.help v.form.help).getD .misuse
  | _ => .misuse

/-- Reads the arguments of the program. -/
def Request.read : List String → Except Stop Request
  | [] | ["--"] => .ok (.probe Config.defaultTarget)
  | a :: rest =>
    match Shape.of a with
    | .short 'h' | .long "help" none => .error (.help programHelp)
    | .short 'V' | .long "version" none => .error .version
    | .plain =>
      match Verb.ofName? a with
      | some v => do
        match v.request? (← v.form.read {} rest) with
        | some r => return r
        | none => .error .misuse
      | none => .error (if a = "help" then readHelp rest else .misuse)
    | _ => .error .misuse

end LibraryGuard.CommandLine
