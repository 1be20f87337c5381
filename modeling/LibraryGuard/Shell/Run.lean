import LibraryGuard.Shell.Arithmetic
import LibraryGuard.Shell.Reading
import LibraryGuard.Shell.State

/-!
# Running a shell script

Words are expanded to fields, and a command is looked up among the functions, the shell's own commands, the tools and the
files. Each nested action runs with one level less to go; loops are cut off after many rounds. Both count as never ending.
-/

namespace LibraryGuard.Shell

/-- A piece of an expanded word. -/
inductive Piece where
  /-- Characters that stay together; those that are active may have a meaning in a pattern. -/
  | solid (text : List Char) (isActive : Bool)
  /-- Characters that are divided at separators. -/
  | loose (text : List Char)
  /-- The end of a field. -/
  | boundary

/-- The text of pieces, undivided. -/
def Piece.join (ps : List Piece) : List Char :=
  ps.flatMap fun p => match p with
    | .solid t _ | .loose t => t
    | .boundary => [' ']

/-- The pieces as a pattern. -/
def Piece.pattern (ps : List Piece) : List PatternChar :=
  ps.flatMap fun p => match p with
    | .solid t isActive => t.map (⟨·, isActive⟩)
    | .loose t => t.map (⟨·, true⟩)
    | .boundary => [⟨' ', true⟩]

/-- The fields of pieces: those that are complete, latest first, and the one that is begun. -/
def Piece.addTo (separators : List Char) (fields : List (List Char)) (begun : Option (List Char)) :
    List Piece → List (List Char)
  | [] => (begun.toList ++ fields).reverse
  | .boundary :: rest => addTo separators (begun.toList ++ fields) none rest
  | .solid t _ :: rest => addTo separators fields (some (begun.getD [] ++ t)) rest
  | .loose t :: rest =>
    let step := fun (c : Char) (words : List (List Char)) =>
      if separators.contains c then [] :: words else (c :: words.headD []) :: words.tail
    match t.foldr step [[]] with
    | [] | [[]] => addTo separators fields begun rest
    | first :: more =>
      let first := begun.getD [] ++ first
      match more.reverse with
      | [] => addTo separators fields (some first) rest
      | last :: middle =>
        let complete := (middle.reverse.filter (· ≠ [])).reverse
        let fields := complete ++ (if first = [] && begun.isNone then fields else first :: fields)
        addTo separators fields (if last = [] then none else some last) rest

/-- The number of rounds after which a loop counts as endless. -/
def roundLimit : Nat := 100000

/-- The message of a command that cannot be run. -/
def complaint (name : List Char) (words : String) : Act Unit := do
  let st ← get
  let line := (toString st.line).toList
  complain (st.name ++ ": ".toList ++ line ++ ": ".toList ++ name ++ ": ".toList ++ words.toList ++ ['\n'])

/-- The first line of a text, whether it is complete, and what follows. -/
def takeLine (s : List Char) : List Char × Bool × List Char :=
  let (line, r) := s.span (· ≠ '\n')
  (line, !r.isEmpty, r.drop 1)

/-- Divides a line among so many names; the last one gets what is left. -/
def divide (separators : List Char) : Nat → List Char → List (List Char)
  | 0, _ => []
  | 1, s =>
    let s := s.dropWhile separators.contains
    [(s.reverse.dropWhile separators.contains).reverse]
  | n + 1, s =>
    let (w, r) := (s.dropWhile separators.contains).span (!separators.contains ·)
    w :: divide separators n r

/-- Reads a line into variables. -/
def readLine (arguments : List (List Char)) : Act Unit := do
  let names := arguments.filter fun a => a.head? ≠ some '-'
  let isRaw := arguments.contains ['-', 'r']
  let st ← get
  let source := st.source
  let (line, complete, rest) := takeLine source.content
  let line := if isRaw then line else line.filter (· ≠ '\\')
  set { st.setSource { source with content := rest } with now := max st.now source.readyAt }
  for (n, v) in names.zip (divide st.separators names.length line) do
    setVariable n v
  setStatus (if complete then 0 else 1)

/-- The number of a signal by its name or number. -/
def signalNumber? (s : List Char) : Option Nat :=
  (natural? s).or ((signalNames.findIdx? fun n => n = String.ofList s || n = "SIG" ++ String.ofList s).map (· + 1))

/-- Sends a signal. Nothing is sent by the number zero. -/
def kill (arguments : List (List Char)) : Act Unit := do
  let (signal, targets) := match arguments with
    | ['-', 's'] :: n :: rest => (signalNumber? n, rest)
    | ('-' :: n) :: rest => (signalNumber? n, rest)
    | rest => (some 15, rest)
  match signal with
  | none => setStatus 2
  | some signal =>
    setStatus 0
    for t in targets do
      match natural? t with
      | none => setStatus 2
      | some p =>
        let st ← get
        if p = mainProcess || p = 0 then
          if signal ≠ 0 && (signal = 9 || !st.ignored.contains signal) then throw (.signal signal)
        else if (st.jobs.lookup p).isSome then
          set { st with jobs := st.jobs.map fun (q, t) => (q, if q = p then some st.now else t) }
        else setStatus 1

/-- Whether an expression of a test holds; nothing if it is none. -/
def holds? (t : FileTree) : List (List Char) → Option Bool
  | [] => some false
  | [a] => some (a ≠ [])
  | ['!'] :: rest => (holds? t rest).map not
  | [['-', o], a] =>
    match o with
    | 'n' => some (a ≠ [])
    | 'z' => some (a = [])
    | 'f' => some (t.isFile (pathOf a))
    | 'e' | 'r' | 'w' => some (t.isPresent (pathOf a))
    | 'd' => some (t.find (pathOf a) matches .ok .directory)
    | 'x' => some (match t.find (pathOf a) with
      | .ok (.file _ mayRun) => mayRun
      | .ok (.tool _) | .ok .directory => true
      | _ => false)
    | 's' => some (match t.find (pathOf a) with
      | .ok (.file content _) => !content.isEmpty
      | .ok (.tool _) => true
      | _ => false)
    | _ => none
  | [a, o, b] =>
    match String.ofList o with
    | "=" | "==" => some (a = b)
    | "!=" => some (a ≠ b)
    | "-a" => some (a ≠ [] && b ≠ [])
    | "-o" => some (a ≠ [] || b ≠ [])
    | o =>
      match integer? a, integer? b with
      | some m, some n =>
        (match o with
        | "-eq" => some (decide (m = n))
        | "-ne" => some (decide (m ≠ n))
        | "-lt" => some (decide (m < n))
        | "-le" => some (decide (m ≤ n))
        | "-gt" => some (decide (m > n))
        | "-ge" => some (decide (m ≥ n))
        | _ => none)
      | _, _ => none
  | _ => none

/-- The expressions between the occurrences of an operator. -/
def between (operator : List Char) (arguments : List (List Char)) : List (List (List Char)) :=
  arguments.foldr (fun a groups =>
    if a = operator then [] :: groups else (a :: groups.headD []) :: groups.tail) [[]]

/-- Whether a test with operators for "and" and "or" holds; nothing if it is none. -/
def holdsAny? (t : FileTree) (arguments : List (List Char)) : Option Bool :=
  if arguments.length ≤ 3 then holds? t arguments
  else do
    let groups ← (between "-o".toList arguments).mapM fun g => (between "-a".toList g).mapM (holds? t)
    return groups.any fun g => g.all id

/-- Tests an expression. -/
def test (arguments : List (List Char)) : Act Unit := do
  setStatus (match holdsAny? (← get).tree arguments with
    | some true => 0
    | some false => 1
    | none => 2)

/-- Writes what a tool writes, lets its time pass, and takes over its code. -/
def perform (r : ToolRun) : Act Unit := do
  if r.readsInput then modify fun st => { st.setSource {} with now := max st.now st.source.readyAt }
  put r.out
  complain r.err
  if r.isEndless then throw .endless
  modify fun st => { st with now := st.now + r.duration }
  setStatus r.code

/-- The code that an ending command asks for: its argument, or the last code. -/
def askedStatus (arguments : List (List Char)) : Act Unit := do
  match arguments with
  | [] => return
  | a :: _ =>
    match natural? a with
    | some n => setStatus n
    | none =>
      complaint "exit".toList ("Illegal number: " ++ String.ofList a)
      setStatus 2

/-- Waits until the jobs in the background have ended. -/
def wait : Act Unit := do
  let st ← get
  match (st.jobs.map (·.2)).foldl (fun t u => do return max (← t) (← u)) (some st.now) with
  | some t => set { st with now := t, jobs := [] }
  | none => throw .endless
  setStatus 0

/-- Sets and exports variables. -/
def exportAll (arguments : List (List Char)) : Act Unit := do
  for a in arguments do
    let (n, v) := a.span (· ≠ '=')
    if !v.isEmpty then setVariable n (v.drop 1)
    modify fun st => { st with exported := n :: st.exported }
  setStatus 0

/-- Sets variables of a function. -/
def setLocals (arguments : List (List Char)) : Act Unit := do
  setStatus 0
  for a in arguments do
    let (n, v) := a.span (· ≠ '=')
    let st ← get
    match st.locals with
    | none =>
      complaint "local".toList "not in a function"
      setStatus 2
      throw .exit
    | some saved =>
      set { st with locals := some ((n, st.values.lookup n) :: saved) }
      if !v.isEmpty then setVariable n (v.drop 1)

/-- Sets options and arguments. -/
def setOptions (arguments : List (List Char)) : Act Unit := do
  match arguments with
  | ['-', '-'] :: rest => modify fun st => { st with arguments := rest }
  | ('-' :: options) :: _ => modify fun st => { st with
      isStrict := st.isStrict || options.contains 'e', isExact := st.isExact || options.contains 'u' }
  | ('+' :: options) :: _ => modify fun st => { st with
      isStrict := st.isStrict && !options.contains 'e', isExact := st.isExact && !options.contains 'u' }
  | rest => if !rest.isEmpty then modify fun st => { st with arguments := rest }
  setStatus 0

/-- Sets the script that is run at the end, and the signals that are ignored. -/
def setTrap (arguments : List (List Char)) : Act Unit := do
  match arguments with
  | action :: events =>
    if events.contains "EXIT".toList || events.contains ['0'] then
      modify fun st => { st with atExit := if action = ['-'] then [] else action }
    let signals := events.filterMap signalNumber?
    let kept := fun (st : State) => st.ignored.filter (!signals.contains ·)
    modify fun st => { st with ignored := if action = [] then signals ++ kept st else kept st }
  | [] => pure ()
  setStatus 0

/-- The shell's own commands that need no further running. -/
def builtin? (name : String) : Option (List (List Char) → Act Unit) :=
  match name with
  | ":" | "true" | "umask" | "ulimit" => some fun _ => setStatus 0
  | "false" => some fun _ => setStatus 1
  | "echo" => some fun a => perform (echo true a)
  | "printf" => some fun a => perform (printf a)
  | "test" => some test
  | "[" => some fun a => if a.getLast? = some [']'] then test a.dropLast else setStatus 2
  | "read" => some readLine
  | "kill" => some kill
  | "wait" => some fun _ => wait
  | "export" => some exportAll
  | "local" => some setLocals
  | "set" => some setOptions
  | "trap" => some setTrap
  | "pwd" => some fun _ => do
    put ('/' :: ("/".intercalate (← get).tree.here).toList ++ ['\n'])
    setStatus 0
  | "unset" => some fun a => do
    modify fun st => { st with values := st.values.filter fun (n, _) => !a.contains n }
    setStatus 0
  | "shift" => some fun a => do
    modify fun st => { st with arguments := st.arguments.drop ((a.head?.bind natural?).getD 1) }
    setStatus 0
  | "exit" => some fun a => do
    askedStatus a
    throw .exit
  | "return" => some fun a => do
    askedStatus a
    throw .return_
  | "break" => some fun a => throw (.leave ((a.head?.bind natural?).getD 1))
  | "continue" => some fun a => throw (.next ((a.head?.bind natural?).getD 1))
  | _ => none

/-- The directories where a program is looked for whose name has no slash. -/
def usualDirectories : List Char := "/usr/local/bin:/usr/bin:/bin".toList

/-- The paths at which a program of some name is looked for. -/
def programPaths (directories : Option (List Char)) (name : List Char) : List (List Char) :=
  if name.contains '/' then [name]
  else
    (Text.pieces ':' (directories.getD usualDirectories)).map fun d =>
      (if d.isEmpty then ['.'] else d) ++ '/' :: name

/-- A thing that can be run: a tool, or a file with this content. -/
inductive Runnable where
  | tool (name : String)
  | file (content : List Char)

/-- What is run for a path; nothing if a thing stands there that may not be run. -/
def runnable (t : FileTree) (path : List Char) : Except AccessFault (Option Runnable) := do
  match ← t.find (pathOf path) with
  | .tool n => return some (.tool n)
  | .file content true => return some (.file (charsOf content))
  | _ => return none

/-- The path at which a program of some name is found, and what is run for it, if that is possible. -/
def State.program? (st : State) (name : List Char) : Option (List Char × Option Runnable) :=
  let found := (programPaths (st.values.lookup "PATH".toList) name).filterMap fun path =>
    match runnable st.tree path with
    | .ok r => some (path, r)
    | .error _ => none
  (found.find? (·.2.isSome)).or found.head?

/-- Goes to another directory. -/
def changeDirectory (arguments : List (List Char)) : Act Unit := do
  let st ← get
  let name := arguments.headD []
  match st.tree.place (pathOf (name ++ ['/'])) with
  | .ok place =>
    set { st with tree := { st.tree with here := place } }
    setStatus 0
  | .error _ =>
    complaint "cd".toList ("can't cd to " ++ String.ofList name)
    setStatus 2

/-- Says where programs are found. -/
def sayWhere (names : List (List Char)) : Act Unit := do
  let st ← get
  setStatus 0
  for name in names do
    if (builtin? (String.ofList name)).isSome || (st.functions.lookup name).isSome then put (name ++ ['\n'])
    else
      match st.program? name with
      | some (path, some _) => put (path ++ ['\n'])
      | _ => setStatus 127

/-- The words of the first line of a file that names the program which runs it. -/
def interpreter? (content : List Char) : Option (List Char × List (List Char)) :=
  match content with
  | '#' :: '!' :: r =>
    let line := (takeLine r).1.dropWhile isBlank
    let (program, rest) := line.span (!isBlank ·)
    let argument := ((rest.dropWhile isBlank).reverse.dropWhile isBlank).reverse
    if program.isEmpty then none else some (program, if argument.isEmpty then [] else [argument])
  | _ => none

/-- What a shell is started with: options, a script or the name of a file with one, and arguments. -/
inductive ShellCall where
  | text (script : List Char) (name : List Char) (arguments : List (List Char)) (isStrict : Bool)
  | file (name : List Char) (arguments : List (List Char)) (isStrict : Bool)
  | nothing
  | refused (option : List Char)

/-- What a shell does with its operands, after the options that it has read. -/
def ShellCall.ofOperands (self : List Char) (hasText isStrict : Bool) : List (List Char) → ShellCall
  | [] => if hasText then .refused ['c'] else .nothing
  | first :: rest =>
    if hasText then .text first (rest.headD self) (rest.drop 1) isStrict else .file first rest isStrict

/-- Reads the arguments of a shell. -/
def ShellCall.of (self : List Char) (hasText isStrict : Bool) : List (List Char) → ShellCall
  | ['-', '-'] :: rest => ofOperands self hasText isStrict rest
  | ('-' :: o) :: rest =>
    if !o.all "ceuxs".toList.contains then .refused o
    else of self (hasText || o.contains 'c') (isStrict || o.contains 'e') rest
  | operands => ofOperands self hasText isStrict operands

mutual

/-- Expands the parts of a word. -/
def expand : Nat → List Part → Act (List Piece)
  | 0, _ => throw .endless
  | fuel + 1, ps => do
    let mut pieces : Array Piece := #[]
    for p in ps do
      pieces := pieces ++ (← expandPart fuel p)
    return pieces.toList

/-- Expands a part of a word. -/
def expandPart : Nat → Part → Act (List Piece)
  | 0, _ => throw .endless
  | fuel + 1, p => do
    let piece := fun (isQuoted : Bool) (t : List Char) => if isQuoted then [Piece.solid t false] else [.loose t]
    match p with
    | .bare t => return [.solid t true]
    | .quoted t => return [.solid t false]
    | .number e isQuoted =>
      let st ← get
      let value := fun n => Int64.ofInt (((st.parameter? n).bind integer?).getD 0)
      match evaluate? value e with
      | some (result, target) =>
        let text := (toString result).toList
        if let some n := target then setVariable n text
        return piece isQuoted text
      | none =>
        complaint "arithmetic expression".toList ("expecting primary: \"" ++ String.ofList e ++ "\"")
        setStatus 2
        throw .exit
    | .output items isQuoted =>
      let (text, closed, stop) ← capture id (runItems fuel items)
      match stop, closed with
      | some (.signal n), _ => throw (.signal n)
      | _, none => throw .endless
      | _, some t =>
        modify fun st => { st with now := max st.now t }
        return piece isQuoted ((text.filter (· ≠ '\x00')).reverse.dropWhile (· = '\n')).reverse
    | .parameter n use w isQuoted =>
      let st ← get
      let v := st.parameter? n
      let isMissing := fun (alsoEmpty : Bool) => v.isNone || (alsoEmpty && v = some [])
      match use with
      | .value =>
        if n = ['@'] && isQuoted then
          return ((st.arguments.map fun a => [Piece.solid a false]).intersperse [.boundary]).flatten
        else if v.isNone && st.isExact && n ≠ ['@'] && n ≠ ['*'] then
          complaint n "parameter not set"
          setStatus 2
          throw .exit
        else return if v.isNone && !isQuoted then [] else piece isQuoted (v.getD [])
      | .length => return piece isQuoted (toString (v.getD []).length).toList
      | .otherwise alsoEmpty =>
        if isMissing alsoEmpty then
          let ps ← expand fuel w
          return if isQuoted then [.solid (Piece.join ps) false] else ps
        else return piece isQuoted (v.getD [])
      | .assigned alsoEmpty =>
        if isMissing alsoEmpty then
          let t := Piece.join (← expand fuel w)
          setVariable n t
          return piece isQuoted t
        else return piece isQuoted (v.getD [])
      | .instead alsoEmpty =>
        if isMissing alsoEmpty then return []
        else
          let ps ← expand fuel w
          return if isQuoted then [.solid (Piece.join ps) false] else ps
      | .demanded alsoEmpty =>
        if isMissing alsoEmpty then
          let t := Piece.join (← expand fuel w)
          complaint n (if t.isEmpty then "parameter not set" else String.ofList t)
          setStatus 2
          throw .exit
        else return piece isQuoted (v.getD [])
      | .trimmed atEnd longest =>
        let pattern := Piece.pattern (← expand fuel w)
        let cut := if atEnd then trimEnd else trimStart
        return piece isQuoted (cut longest pattern (v.getD []))

/-- Expands a word to one text. -/
def expandText : Nat → List Part → Act (List Char)
  | 0, _ => throw .endless
  | fuel + 1, ps => do return Piece.join (← expand fuel ps)

/-- Expands words to fields. -/
def expandFields : Nat → List (List Part) → Act (List (List Char))
  | 0, _ => throw .endless
  | fuel + 1, ws => do
    let mut fields : Array (List Char) := #[]
    for w in ws do
      fields := fields ++ Piece.addTo (← get).separators [] none (← expand fuel w)
    return fields.toList

/-- Redirects descriptors; what follows is told whether that went well. -/
def redirect : Nat → List Redirection → Act Bool
  | 0, _ => throw .endless
  | fuel + 1, rs => do
    let mut isWell := true
    for r in rs do
      if isWell then
        match r with
        | .text _ content =>
          let t ← expandText fuel content
          modify fun st => st.withInput ⟨t, st.now⟩
        | .file d kind target =>
          let t ← expandText fuel target
          let st ← get
          let aim := fun (s : Sink) => if d = 2 then { st with err := s } else if d = 1 then { st with out := s } else st
          match kind with
          | .copy => set (aim (if t = ['1'] then st.out else if t = ['2'] then st.err else .nowhere))
          | .write | .append =>
            match st.tree.find (pathOf t) with
            | .ok .directory =>
              isWell := false
              complaint ("cannot create ".toList ++ t) "Is a directory"
            | _ =>
              set (aim (if t = "/dev/stdout".toList then st.out
                else if t = "/dev/stderr".toList then st.err else .nowhere))
          | .read =>
            match contentFor st.tree t with
            | .ok (content, _) => set (st.withInput ⟨content, st.now⟩)
            | .error _ =>
              isWell := false
              complaint ("cannot open ".toList ++ t) "No such file"
    if !isWell then setStatus 2
    return isWell

/-- Runs a list of chains. -/
def runItems : Nat → List Item → Act Unit
  | 0, _ => throw .endless
  | fuel + 1, items => do
    for i in items do
      runItem fuel i

/-- Runs a chain, in the background or not. -/
def runItem : Nat → Item → Act Unit
  | 0, _ => throw .endless
  | fuel + 1, .of first rest inBackground => do
    if inBackground then
      let start := (← get).now
      let stop ← apart (·.withInput {}) (runChain fuel first rest)
      if let some (.signal n) := stop then throw (.signal n)
      modify fun st =>
        let time := if stop = some .endless then none else some st.now
        { st.release time with now := start, status := 0, jobs := (mainProcess + 1 + st.jobs.length, time) :: st.jobs }
    else runChain fuel first rest

/-- Runs pipelines one after the other, each further one if the code so far permits. -/
def runChain : Nat → Pipeline → List (Bool × Pipeline) → Act Unit
  | 0, _, _ => throw .endless
  | fuel + 1, first, rest => do
    runPipeline fuel first
    for (onSuccess, p) in rest do
      if ((← get).status = 0) = onSuccess then runPipeline fuel p
    let st ← get
    if st.isStrict && st.status ≠ 0 && rest.isEmpty then
      match first with
      | .of false _ => throw .exit
      | .of true _ => return

/-- Runs connected commands. -/
def runPipeline : Nat → Pipeline → Act Unit
  | 0, _ => throw .endless
  | fuel + 1, .of isNegated commands => do
    match commands with
    | [c] => runCommand fuel c
    | _ =>
      let start := (← get).now
      let mut latest := start
      let mut source : Option Source := none
      for c in commands.dropLast do
        let given := source
        let change := fun (st : State) => given.elim { st with now := start } ({ st with now := start }.withInput)
        let (text, closed, stop) ← capture change (runCommand fuel c)
        if let some (.signal n) := stop then throw (.signal n)
        source := some ⟨text, closed.getD start⟩
        latest := max latest (closed.getD start)
      let given := source
      for c in commands.getLast?.toList do
        subshell (fun st => given.elim { st with now := start } ({ st with now := start }.withInput)) (runCommand fuel c)
      let finish := latest
      modify fun st => { st with now := max st.now finish }
    if isNegated then setStatus (if (← get).status = 0 then 1 else 0)

/-- Runs a command. -/
def runCommand : Nat → Command → Act Unit
  | 0, _ => throw .endless
  | fuel + 1, c => do
    match c with
    | .simple below assignments words redirections => runSimple fuel below assignments words redirections
    | .define n body =>
      modify fun st => { st with functions := (n, body) :: st.functions }
      setStatus 0
    | .group isApart body rs =>
      withDescriptors id do
        if ← redirect fuel rs then
          if isApart then subshell id (runItems fuel body) else runItems fuel body
    | .choice branches last rs =>
      withDescriptors id do
        if ← redirect fuel rs then runChoice fuel branches last
    | .loop untilWell condition body rs =>
      withDescriptors id do
        if ← redirect fuel rs then runLoop fuel untilWell condition body
    | .each n words body rs =>
      withDescriptors id do
        if ← redirect fuel rs then runEach fuel n words body
    | .select w cases rs =>
      withDescriptors id do
        if ← redirect fuel rs then runSelect fuel w cases

/-- Runs the first branch whose condition holds. -/
def runChoice : Nat → List (List Item × List Item) → List Item → Act Unit
  | 0, _, _ => throw .endless
  | fuel + 1, branches, last => do
    match branches with
    | [] =>
      setStatus 0
      runItems fuel last
    | (condition, body) :: rest =>
      runCondition fuel condition
      if (← get).status = 0 then runItems fuel body else runChoice fuel rest last

/-- Runs a condition, whose code never ends the shell. -/
def runCondition : Nat → List Item → Act Unit
  | 0, _ => throw .endless
  | fuel + 1, items => do
    let isStrict := (← get).isStrict
    modify fun st => { st with isStrict := false }
    runItems fuel items
    modify fun st => { st with isStrict := isStrict }

/-- Runs one round of a loop and says whether another one may follow. -/
def runRound : Nat → List Item → Act Bool
  | 0, _ => throw .endless
  | fuel + 1, body =>
    tryCatch (do runItems fuel body; return true) fun stop =>
      match stop with
      | .leave n => if n ≤ 1 then return false else throw (.leave (n - 1))
      | .next n => if n ≤ 1 then return true else throw (.next (n - 1))
      | e => throw e

/-- Runs a loop as long as its condition holds, or until it does. -/
def runLoop : Nat → Bool → List Item → List Item → Act Unit
  | 0, _, _, _ => throw .endless
  | fuel + 1, untilWell, condition, body => do
    let mut code := 0
    let mut isDone := false
    for _ in List.range roundLimit do
      runCondition fuel condition
      if ((← get).status = 0) = untilWell then
        isDone := true
        break
      if !(← runRound fuel body) then
        isDone := true
        break
      code := (← get).status
    if !isDone then throw .endless
    setStatus code

/-- Runs a loop over words. -/
def runEach : Nat → List Char → Option (List (List Part)) → List Item → Act Unit
  | 0, _, _, _ => throw .endless
  | fuel + 1, n, words, body => do
    let values ← match words with
      | some ws => expandFields fuel ws
      | none => pure (← get).arguments
    setStatus 0
    for v in values do
      setVariable n v
      if !(← runRound fuel body) then break

/-- Runs the first case with a pattern that matches. -/
def runSelect : Nat → List Part → List (List (List Part) × List Item) → Act Unit
  | 0, _, _ => throw .endless
  | fuel + 1, w, cases => do
    let t ← expandText fuel w
    setStatus 0
    for (patterns, body) in cases do
      let mut isHit := false
      for p in patterns do
        if !isHit then isHit := matchesPattern (Piece.pattern (← expand fuel p)) t
      if isHit then
        runItems fuel body
        return

/-- Runs a simple command. -/
def runSimple : Nat → Nat → List (List Char × List Part) → List (List Part) → List Redirection → Act Unit
  | 0, _, _, _, _ => throw .endless
  | fuel + 1, below, assignments, words, redirections => do
    modify fun st => { st with line := st.lineCount - below + 1 }
    let fields ← expandFields fuel words
    match fields with
    | [] =>
      setStatus 0
      for (n, v) in assignments do
        setVariable n (← expandText fuel v)
      withDescriptors id do
        let _ ← redirect fuel redirections
    | name :: arguments =>
      if name = "exec".toList then
        let before ← get
        if ← redirect fuel redirections then
          modify fun st => { st with holds := before.heldPipes.map (·, some st.now) ++ st.holds }
          match arguments with
          | [] => setStatus 0
          | program :: rest =>
            runNamed fuel program rest
            throw .exit
        else throw .exit
      else
        let values ← assignments.mapM fun (n, v) => do return (n, ← expandText fuel v)
        let saved := (← get).values
        let exported := (← get).exported
        for (n, v) in values do
          setVariable n v
          modify fun st => { st with exported := n :: st.exported }
        withDescriptors id do
          if ← redirect fuel redirections then runNamed fuel name arguments
        if !values.isEmpty then modify fun st => { st with values := saved, exported := exported }

/-- Runs what a name stands for. -/
def runNamed : Nat → List Char → List (List Char) → Act Unit
  | 0, _, _ => throw .endless
  | fuel + 1, name, arguments => do
    let st ← get
    match st.functions.lookup name, builtin? (String.ofList name) with
    | some body, _ =>
      modify fun st => { st with arguments := arguments, locals := some [] }
      tryCatch (runCommand fuel body) fun stop => if stop = .return_ then pure () else throw stop
      modify fun after => { after.forgetLocals with arguments := st.arguments, locals := st.locals }
    | none, some run => run arguments
    | none, none =>
      match String.ofList name with
      | "eval" =>
        match read? (spaced arguments) with
        | some items => runItems fuel items
        | none => setStatus 2
      | "cd" => changeDirectory arguments
      | "." =>
        match st.tree.read (pathOf (arguments.headD [])) with
        | .ok content =>
          match read? (charsOf content) with
          | some items => tryCatch (runItems fuel items) fun stop => if stop = .return_ then pure () else throw stop
          | none => setStatus 2
        | .error _ =>
          complaint name (String.ofList (arguments.headD []) ++ ": not found")
          setStatus 2
          throw .exit
      | "command" | "nohup" | "setsid" | "nice" | "exec" =>
        match arguments with
        | [] => setStatus 0
        | ['-', 'v'] :: names => sayWhere names
        | program :: rest => runNamed fuel program rest
      | _ => runProgram fuel name arguments

/-- Runs a program in a process of its own. -/
def runProgram : Nat → List Char → List (List Char) → Act Unit
  | 0, _, _ => throw .endless
  | fuel + 1, name, arguments => do
    let st ← get
    match st.program? name with
    | some (_, some (.tool tool)) => subshell id (runTool fuel name tool arguments)
    | some (path, some (.file content)) => subshell id (runFile fuel path content arguments)
    | some (_, none) =>
      complaint name "Permission denied"
      setStatus 126
    | none =>
      complaint name "not found"
      setStatus 127

/-- Runs the content of a file: by the program that its first line names, or as a script. -/
def runFile : Nat → List Char → List Char → List (List Char) → Act Unit
  | 0, _, _, _ => throw .endless
  | fuel + 1, name, content, arguments => do
    match interpreter? content with
    | none => runScript fuel content name arguments false
    | some (program, first) =>
      match runnable (← get).tree program with
      | .ok (some (.tool tool)) => runTool fuel program tool (first ++ name :: arguments)
      | _ =>
        complaint name "not found"
        setStatus 127

/-- Runs a tool, which may be a shell. -/
def runTool : Nat → List Char → String → List (List Char) → Act Unit
  | 0, _, _, _ => throw .endless
  | fuel + 1, self, tool, arguments => do
    match tool with
    | "sh" => runShell fuel self arguments
    | "env" =>
      let (settings, rest) := arguments.span fun a => a.contains '='
      exportAll settings
      match rest with
      | [] => perform (printenv ⟨[], [], (← get).environment, (← get).tree⟩)
      | ('-' :: option) :: _ =>
        complain ("env: unrecognized option '-".toList ++ option ++ "'\n".toList)
        setStatus 125
      | program :: rest => runProgram fuel program rest
    | _ =>
      let st ← get
      match tool? tool with
      | some f => perform (f ⟨arguments, st.source.content, st.environment, st.tree⟩)
      | none => setStatus 127

/-- Runs a shell. -/
def runShell : Nat → List Char → List (List Char) → Act Unit
  | 0, _, _ => throw .endless
  | fuel + 1, self, arguments => do
    match ShellCall.of self false false arguments with
    | .text s name arguments isStrict => runScript fuel s name arguments isStrict
    | .file name arguments isStrict =>
      match (← get).tree.read (pathOf name) with
      | .ok content => runScript fuel (charsOf content) name arguments isStrict
      | .error _ =>
        complain (self ++ ": 0: cannot open ".toList ++ name ++ ": No such file\n".toList)
        setStatus 2
    | .nothing => runScript fuel (← get).source.content self [] false
    | .refused option =>
      complain (self ++ ": 0: Illegal option -".toList ++ option ++ ['\n'])
      setStatus 2

/-- Runs a script with its name and arguments. -/
def runScript : Nat → List Char → List Char → List (List Char) → Bool → Act Unit
  | 0, _, _, _, _ => throw .endless
  | fuel + 1, s, name, arguments, isStrict => do
    modify fun st => { st with
      name := name, arguments := arguments, lineCount := s.count '\n', line := 1, isStrict := isStrict, isExact := false
      functions := [], locals := none, atExit := []
      values := st.environment, status := 0 }
    match read? s with
    | some items =>
      tryCatch (runItems fuel items) fun stop =>
        match stop with
        | .exit | .return_ | .leave _ | .next _ => pure ()
        | e => throw e
      let st ← get
      if let some (first :: rest) := read? st.atExit then
        set { st with atExit := [] }
        tryCatch (runItems fuel (first :: rest)) fun stop => if stop = .exit then pure () else throw stop
        setStatus st.status
    | none =>
      complain (name ++ ": 1: Syntax error\n".toList)
      setStatus 2

end

end LibraryGuard.Shell
