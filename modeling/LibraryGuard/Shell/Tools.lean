import LibraryGuard.FileTree
import LibraryGuard.Text.Reader

/-!
# The tools of the machine

A tool is a small program that is known by its name. What it does depends on its arguments, on its input and on the files;
it writes to two streams, takes some time, and ends with a code unless it goes on for ever.
-/

namespace LibraryGuard.Shell

/-- What a tool does. -/
structure ToolRun where
  out : List Char := []
  err : List Char := []
  code : Nat := 0
  /-- How long it takes, in milliseconds. -/
  duration : Nat := 0
  /-- Whether it goes on for ever. -/
  isEndless : Bool := false
  /-- Whether it reads its input to the end. -/
  readsInput : Bool := false

/-- What a tool is given. -/
structure ToolCall where
  arguments : List (List Char)
  input : List Char
  environment : List (List Char × List Char)
  tree : FileTree

/-- The bytes of a file, each as a character. -/
def charsOf (content : Bytes) : List Char := content.toList.map fun b => Char.ofNat b.toNat

/-- The bytes that characters stand for. -/
def bytesOf (s : List Char) : List UInt8 := s.map fun c => UInt8.ofNat c.toNat

/-- The bytes of a text, each as a character. -/
def charsOfText (s : String) : List Char := charsOf (Bytes.ofText s)

/-- The path that characters, each standing for a byte, name. -/
def pathOf (s : List Char) : Path := Path.ofChars (Text.Utf8.decodeLossy (bytesOf s))

/-- The natural number that a text is. -/
def natural? (s : List Char) : Option Nat := if s.isEmpty then none else (String.ofList s).toNat?

/-- The integer that a text is. -/
def integer? : List Char → Option Int
  | '-' :: r => (natural? r).map fun n => -(n : Int)
  | '+' :: r => (natural? r).map Int.ofNat
  | r => (natural? r).map Int.ofNat

/-- An octal digit. -/
def isOctal (c : Char) : Bool := '0' ≤ c && c ≤ '7'

/-- The byte that up to three octal digits at the front of a text stand for, and what follows them. -/
def octal (s : List Char) : Char × List Char :=
  let digits := (s.take 3).takeWhile isOctal
  (Char.ofNat (digits.foldl (fun n c => 8 * n + (c.toNat - '0'.toNat)) 0 % 256), s.drop digits.length)

/-- The character that a letter after a backslash stands for. -/
def escapeOf? : Char → Option Char
  | 'a' => some '\x07'
  | 'b' => some '\x08'
  | 'f' => some '\x0c'
  | 'n' => some '\n'
  | 'r' => some '\r'
  | 't' => some '\t'
  | 'v' => some '\x0b'
  | '\\' => some '\\'
  | _ => none

/-- A text with its escapes replaced, and whether an escape told to stop. At most so many escapes are read. -/
def unescape (zeroFirst : Bool) : Nat → List Char → List Char × Bool
  | 0, s => (s, false)
  | n + 1, s =>
    let (plain, r) := s.span (· ≠ '\\')
    match r with
    | _ :: c :: r =>
      if c = 'c' && zeroFirst then (plain, true)
      else
        let (b, r) :=
          if isOctal c then
            let (b, r) := octal (if zeroFirst && c = '0' then r else c :: r)
            ([b], r)
          else ((escapeOf? c).elim ['\\', c] ([·]), r)
        let (more, stop) := unescape zeroFirst n r
        (plain ++ b ++ more, stop)
    | _ => (s, false)

/-- Words with a space between them. -/
def spaced (ws : List (List Char)) : List Char := [' '].intercalate ws

/-- Prints its arguments. The shell's own form replaces escapes. -/
def echo (withEscapes : Bool) (arguments : List (List Char)) : ToolRun :=
  let (newline, words) := match arguments with
    | w :: ws => if w = "-n".toList then (([] : List Char), ws) else (['\n'], arguments)
    | [] => (['\n'], [])
  let text := spaced words
  if withEscapes then
    let (s, stop) := unescape true text.length text
    { out := s ++ if stop then [] else newline }
  else { out := text ++ newline }

/-- A text in a field of the given width. -/
def padded (width : Nat) (isLeft : Bool) (fill : Char) (s : List Char) : List Char :=
  let gap := List.replicate (width - s.length) (if isLeft then ' ' else fill)
  if isLeft then s ++ gap else gap ++ s

/-- A directive of a format, after its sign: whether it is left-aligned, its fill, width and precision, and its letter. -/
structure Directive where
  isLeft : Bool
  fill : Char
  width : Nat
  precision : Option Nat
  letter : Char

/-- Reads a directive. -/
def directive? (s : List Char) : Option (Directive × List Char) := do
  let (flags, r) := s.span fun c => c = '-' || c = '0' || c = '+' || c = ' ' || c = '#'
  let (width, r) := r.span Char.isDigit
  let (precision, r) := match r with
    | '.' :: r =>
      let (p, r) := r.span Char.isDigit
      (some ((natural? p).getD 0), r)
    | r => (none, r)
  match r with
  | letter :: r =>
    return (⟨flags.contains '-', if flags.contains '0' then '0' else ' ', (natural? width).getD 0, precision, letter⟩, r)
  | [] => none

/-- What a directive prints for an argument, which may be missing. -/
def Directive.print (d : Directive) (argument : Option (List Char)) : List Char :=
  let text := argument.getD []
  let number := (integer? text).getD 0
  let body := match d.letter with
    | 's' => (d.precision.elim text text.take)
    | 'b' => (unescape true text.length text).1
    | 'c' => text.take 1
    | 'x' => Nat.toDigits 16 number.toNat
    | 'X' => (Nat.toDigits 16 number.toNat).map Char.toUpper
    | 'o' => Nat.toDigits 8 number.toNat
    | _ => (toString number).toList
  padded d.width d.isLeft (if d.letter = 's' then ' ' else d.fill) body

/-- Prints once through a format, giving the arguments that are left and whether any was used. -/
def formatOnce : Nat → List Char → List (List Char) → Bool → List Char × List (List Char) × Bool
  | 0, _, args, used => ([], args, used)
  | n + 1, s, args, used =>
    let (plain, r) := s.span fun c => c ≠ '%' && c ≠ '\\'
    match r with
    | '%' :: '%' :: r =>
      let (more, rest) := formatOnce n r args used
      (plain ++ '%' :: more, rest)
    | '%' :: r =>
      match directive? r with
      | none => (plain, args, used)
      | some (d, r) =>
        let (more, rest) := formatOnce n r (args.drop 1) true
        (plain ++ d.print args.head? ++ more, rest)
    | _ :: c :: r =>
      let (b, r) :=
        if isOctal c then
          let (b, r) := octal (c :: r)
          ([b], r)
        else ((escapeOf? c).elim ['\\', c] ([·]), r)
      let (more, rest) := formatOnce n r args used
      (plain ++ b ++ more, rest)
    | _ => (s, args, used)

/-- Prints through a format as often as there are arguments for. -/
def formatAll (format : List Char) : Nat → List (List Char) → List Char
  | 0, _ => []
  | n + 1, args =>
    let (s, rest, used) := formatOnce format.length format args false
    if rest.isEmpty || !used then s else s ++ formatAll format n rest

/-- Prints its arguments through a format. -/
def printf (arguments : List (List Char)) : ToolRun :=
  match arguments with
  | [] => { err := "printf: usage: printf format [arg ...]\n".toList, code := 2 }
  | format :: args => { out := formatAll format (args.length + 1) args }

/-- The milliseconds that a duration names. -/
def milliseconds? (s : List Char) : Option Nat := do
  let (whole, r) := s.span Char.isDigit
  let (places, r) := match r with
    | '.' :: r => r.span Char.isDigit
    | r => ([], r)
  if whole.isEmpty && places.isEmpty then none
  let ms := (natural? whole).getD 0 * 1000 + (natural? ((places ++ ['0', '0', '0']).take 3)).getD 0
  match r with
  | [] | ['s'] => some ms
  | ['m'] => some (ms * 60)
  | ['h'] => some (ms * 3600)
  | ['d'] => some (ms * 86400)
  | _ => none

/-- Waits. -/
def sleep (c : ToolCall) : ToolRun :=
  if c.arguments.isEmpty then { err := "sleep: missing operand\n".toList, code := 1 }
  else
    match c.arguments.mapM milliseconds? with
    | some ds => { duration := ds.foldl (· + ·) 0 }
    | none => if c.arguments = ["infinity".toList] then { isEndless := true }
      else { err := "sleep: invalid time interval\n".toList, code := 1 }

/-- How much of an endless output is looked at. -/
def endlessLength : Nat := 1 <<< 17

/-- The content of a file for a tool, and whether it has no end. -/
def contentFor (t : FileTree) (name : List Char) : Except AccessFault (List Char × Bool) :=
  if name = "/dev/zero".toList then .ok (List.replicate endlessLength '\x00', true)
  else do return (charsOf (← t.read (pathOf name)), false)

/-- The contents of several files, or of the input if there are none. -/
def contents (tool : String) (c : ToolCall) (names : List (List Char)) : ToolRun :=
  if names.isEmpty then { out := c.input, readsInput := true }
  else
    names.foldl (fun r name =>
      if r.isEndless then r
      else if name = ['-'] then { r with out := r.out ++ c.input, readsInput := true }
      else
        match contentFor c.tree name with
        | .ok (s, isEndless) => { r with out := r.out ++ s, isEndless := isEndless }
        | .error e =>
          let words := String.ofList ((e.message.toList).takeWhile (· ≠ '('))
          { r with
            err := r.err ++ tool.toList ++ ": ".toList ++ name ++ ": ".toList ++ words.trimAsciiEnd.toString.toList
              ++ ['\n']
            code := 1 }) {}

/-- The lines of a text, each with its line feed if it has one. -/
def fullLines (s : List Char) : List (List Char) :=
  s.foldr (fun c ls => if c = '\n' then [c] :: ls else (c :: ls.headD []) :: ls.tail) []

/-- How many bytes or lines to keep: the options of the tools that keep the front or the end of a text. -/
def keepOptions : List (List Char) → Bool × Nat × List (List Char)
  | ['-', 'c'] :: n :: files => (true, (natural? n).getD 0, files)
  | ['-', 'n'] :: n :: files => (false, (natural? n).getD 0, files)
  | ('-' :: 'c' :: n) :: files => (true, (natural? n).getD 0, files)
  | ('-' :: 'n' :: n) :: files => (false, (natural? n).getD 0, files)
  | ('-' :: n) :: files => if n.isEmpty then (false, 10, ['-'] :: files) else (false, (natural? n).getD 10, files)
  | files => (false, 10, files)

/-- Prints the front of a text. -/
def head (c : ToolCall) : ToolRun :=
  let (byBytes, n, files) := keepOptions c.arguments
  let r := contents "head" c files
  { r with
    out := if byBytes then
        (if r.out.length < n && r.isEndless then List.replicate n (r.out.headD '\x00') else r.out.take n)
      else ((fullLines r.out).take n).flatten
    isEndless := false }

/-- Prints the end of a text. -/
def tail (c : ToolCall) : ToolRun :=
  let (byBytes, n, files) := keepOptions c.arguments
  let r := contents "tail" c files
  let last := fun (k : Nat) (l : List Char) => l.drop (l.length - k)
  let ls := fullLines r.out
  { r with out := if byBytes then last n r.out else (ls.drop (ls.length - n)).flatten }

/-- The characters of a set. -/
def charSet (s : List Char) : List Char :=
  let chars := (unescape false s.length s).1
  let rec ranges : Nat → List Char → List Char
    | 0, _ | _, [] => []
    | n + 1, a :: '-' :: b :: r =>
      (List.range (b.toNat + 1 - a.toNat)).map (fun i => Char.ofNat (a.toNat + i)) ++ ranges n r
    | n + 1, a :: r => a :: ranges n r
  ranges chars.length chars

/-- Replaces or removes characters. -/
def transliterate (c : ToolCall) : ToolRun :=
  match c.arguments with
  | [o, set] =>
    if o = "-d".toList then
      let chars := charSet set
      { out := c.input.filter (!chars.contains ·), readsInput := true }
    else
      let pairs := charSet o
      let into := charSet set
      let replace := fun x =>
        match pairs.findIdx? (· = x) with
        | some i => (into[i]?.or into.getLast?).getD x
        | none => x
      { out := c.input.map replace, readsInput := true }
  | _ => { err := "tr: missing operand\n".toList, code := 1 }

/-- Prints numbers in order. -/
def sequence (c : ToolCall) : ToolRun :=
  let line := fun (n : Int) => (toString n).toList ++ ['\n']
  let upTo := fun (a b : Int) => { out := (List.range (b - a + 1).toNat).flatMap fun (i : Nat) => line (a + i) : ToolRun }
  match c.arguments.mapM integer? with
  | some [b] => upTo 1 b
  | some [a, b] => upTo a b
  | _ => { err := "seq: invalid argument\n".toList, code := 1 }

/-- Prints one line for ever. -/
def yes (c : ToolCall) : ToolRun :=
  let line := (if c.arguments.isEmpty then ['y'] else spaced c.arguments) ++ ['\n']
  { out := (List.replicate (endlessLength / line.length + 1) line).flatten, isEndless := true }

/-- Prints the values of variables. -/
def printenv (c : ToolCall) : ToolRun :=
  if c.arguments.isEmpty then { out := c.environment.flatMap fun (n, v) => n ++ '=' :: v ++ ['\n'] }
  else
    let values := c.arguments.filterMap fun n => c.environment.lookup n
    { out := values.flatMap (· ++ ['\n']), code := if values.length = c.arguments.length then 0 else 1 }

/-- The complaint about an option that a tool does not have. -/
def unknownOption (tool : String) (option : List Char) : ToolRun :=
  { err := tool.toList ++ ": unrecognized option '".toList ++ option ++ "'\n".toList, code := 1 }

/-- An option among arguments that is unknown because it is written as a word. -/
def longOption? (arguments : List (List Char)) : Option (List Char) :=
  arguments.find? fun a => "--".toList.isPrefixOf a && a.length > 2

/-- The part of a path after its last slash, or up to it. -/
def pathPart (tool : String) (wantsName : Bool) (c : ToolCall) : ToolRun :=
  match longOption? c.arguments, c.arguments with
  | some o, _ => unknownOption tool o
  | none, p :: rest =>
    let p := if p.all (· = '/') then p.take 1 else (p.reverse.dropWhile (· = '/')).reverse
    let name := (p.reverse.takeWhile (· ≠ '/')).reverse
    let above := ((p.reverse.dropWhile (· ≠ '/')).dropWhile (· = '/')).reverse
    if wantsName then
      let ending := rest.headD []
      let short := if ending ≠ name && ending.isSuffixOf name then name.take (name.length - ending.length) else name
      { out := (if p = ['/'] then p else short) ++ ['\n'] }
    else { out := (if above.isEmpty then (if p.head? = some '/' then ['/'] else ['.']) else above) ++ ['\n'] }
  | none, [] => { err := tool.toList ++ ": missing operand\n".toList, code := 1 }

/-- Counts the bytes or lines of a text. -/
def count (c : ToolCall) : ToolRun :=
  let total := fun (n : Nat) => { out := (toString n).toList ++ ['\n'], readsInput := true : ToolRun }
  match longOption? c.arguments with
  | some o => unknownOption "wc" o
  | none => total (if c.arguments = ["-c".toList] then c.input.length else c.input.count '\n')

/-- Refuses to list the dependencies of a file that is no library. -/
def listDependencies (c : ToolCall) : ToolRun :=
  let refuse := fun (words : List Char) => { err := words ++ ['\n'], code := 1 : ToolRun }
  match c.arguments with
  | [] => refuse "ldd: missing file arguments".toList
  | name :: _ =>
    let path := if name.contains '/' then name else "./".toList ++ name
    match c.tree.find (pathOf path) with
    | .error _ => refuse ("ldd: ".toList ++ path ++ ": No such file or directory".toList)
    | .ok (.file _ mayRun) =>
      let warning := "ldd: warning: you do not have execution permission for \x60".toList ++ path ++ "'\n".toList
      refuse ((if mayRun then [] else warning) ++ "\tnot a dynamic executable".toList)
    | .ok _ => refuse ("ldd: ".toList ++ path ++ ": not regular file".toList)

/-- The tools by their names. -/
def tools : List (String × (ToolCall → ToolRun)) :=
  [("true", fun _ => {}), ("false", fun _ => { code := 1 }), ("echo", fun c => echo false c.arguments),
    ("printf", fun c => printf c.arguments), ("sleep", sleep), ("cat", fun c => contents "cat" c c.arguments),
    ("head", head), ("tail", tail), ("tr", transliterate), ("seq", sequence), ("yes", yes), ("printenv", printenv),
    ("basename", pathPart "basename" true), ("dirname", pathPart "dirname" false), ("wc", count),
    ("ldd", listDependencies)]

/-- The tool with a name. -/
def tool? (name : String) : Option (ToolCall → ToolRun) := tools.lookup name

end LibraryGuard.Shell
