import LibraryGuard.Shell.Script

/-!
# Reading a shell script

Words are separated by blanks and by the operators. Quotes, backslashes and dollar signs give the parts of a word. What is
nested in something is read by the readers for one level less, so that the depth of nesting bounds the reading.
-/

namespace LibraryGuard.Shell

open Text (Reader)
open Text.Reader

/-- A blank within a line. -/
def isBlank (c : Char) : Bool := c = ' ' || c = '\t'

/-- A character that ends a word outside of quotes. -/
def endsWord (c : Char) : Bool := isBlank c || "\n|&;<>()".toList.contains c

/-- A character that may start a name. -/
def startsName (c : Char) : Bool := c.isAlpha || c = '_'

/-- A character of a name. -/
def inName (c : Char) : Bool := c.isAlphanum || c = '_'

/-- Skips blanks and continued lines. -/
def blanks : Reader Unit := do
  let _ ← many ((do let _ ← while1 isBlank) <|> word ['\\', '\n'])

/-- Skips blanks, comments and line ends. -/
def emptyLines : Reader Unit := do
  let _ ← many (do
    blanks
    let _ ← optional (do char '#'; while_ (· ≠ '\n'))
    char '\n')

/-- Reads a reserved word. -/
def reserved (w : String) : Reader Unit := do
  blanks
  word w.toList
  match ← peek? with
  | none => pure ()
  | some c => if endsWord c then pure () else failure

/-- The words that no simple command starts with. -/
def reservedWords : List (List Char) :=
  ["if", "then", "else", "elif", "fi", "do", "done", "case", "esac", "while", "until", "for", "\x7b", "\x7d", "!"].map
    String.toList

/-- Readers for what is nested one level deeper. -/
structure Inner where
  items : Reader (List Item)
  /-- A word up to a closing brace. -/
  braced : Reader (List Part)

/-- Reads a name. -/
def name : Reader (List Char) := do
  let c ← satisfying startsName
  let cs ← while_ inName
  return c :: cs

/-- Reads a parameter's name: a name, digits, or one of the special signs. -/
def parameterName (digits : Reader (List Char)) : Reader (List Char) :=
  name <|> digits <|> (do return [← oneOf "@*#?-$!".toList])

/-- Reads how the value of a parameter is used, up to the word that goes with it. -/
def parameterUse : Reader ParameterUse :=
  (do
    let colon ← optional (char ':')
    match ← oneOf ['-', '=', '+', '?'] with
    | '-' => return .otherwise colon.isSome
    | '=' => return .assigned colon.isSome
    | '+' => return .instead colon.isSome
    | _ => return .demanded colon.isSome) <|>
  (do
    let c ← oneOf ['#', '%']
    let twice ← optional (char c)
    return .trimmed (c = '%') twice.isSome)

/-- Reads a parameter between braces. -/
def bracedParameter (inner : Inner) (isQuoted : Bool) : Reader Part := do
  char '\x7b'
  let part ← (do
    char '#'
    let n ← parameterName (while1 Char.isDigit)
    char '\x7d'
    return Part.parameter n .length [] isQuoted) <|> (do
    let n ← parameterName (while1 Char.isDigit)
    let part ← (do
      let use ← parameterUse
      return Part.parameter n use (← inner.braced) isQuoted) <|> return Part.parameter n .value [] isQuoted
    char '\x7d'
    return part)
  return part

/-- Takes an arithmetic expression up to its two closing parentheses, counting those that are open. -/
def expression : Nat → List Char → List Char → Option (List Char × List Char)
  | _, _, [] => none
  | 0, taken, ')' :: ')' :: r => some (taken.reverse, r)
  | n, taken, '(' :: r => expression (n + 1) ('(' :: taken) r
  | n, taken, ')' :: r => if n = 0 then none else expression (n - 1) (')' :: taken) r
  | n, taken, c :: r => expression n (c :: taken) r

/-- Reads what a dollar sign stands for. -/
def dollar (inner : Inner) (isQuoted : Bool) : Reader Part := do
  char '$'
  (do
    word ['(', '(']
    let text ← expression 0 []
    return Part.number text isQuoted) <|> (do
    char '('
    let items ← inner.items
    blanks
    char ')'
    return Part.output items isQuoted) <|> bracedParameter inner isQuoted <|> (do
    let n ← parameterName (do return [← satisfying Char.isDigit])
    return Part.parameter n .value [] isQuoted) <|> return if isQuoted then Part.quoted ['$'] else Part.bare ['$']

/-- Reads a script between backquotes. -/
def backquoted (inner : Inner) (isQuoted : Bool) : Reader Part := do
  char '\x60'
  let parts ← many (while1 (fun c => c ≠ '\x60' && c ≠ '\\') <|> (do
    char '\\'
    let c ← satisfying fun _ => true
    return if c = '\x60' || c = '\\' || c = '$' then [c] else ['\\', c]))
  char '\x60'
  match inner.items parts.flatten with
  | some (items, _) => return .output items isQuoted
  | none => failure

/-- Reads a part between double quotes. -/
def partInQuotes (inner : Inner) : Reader Part :=
  dollar inner true <|> backquoted inner true <|> (do
    char '\\'
    let c ← satisfying fun _ => true
    return .quoted (if c = '\n' then [] else if "$\x60\"\\".toList.contains c then [c] else ['\\', c])) <|> (do
    return .quoted (← while1 fun c => !"$\x60\"\\".toList.contains c))

/-- Reads a text between quotes, or a character after a backslash. -/
def quotedParts (inner : Inner) : Reader (List Part) :=
  (do
    char '\''
    let text ← while_ (· ≠ '\'')
    char '\''
    return [.quoted text]) <|> (do
    char '"'
    let parts ← many (partInQuotes inner)
    char '"'
    return .quoted [] :: parts) <|> (do
    char '\\'
    let c ← satisfying fun _ => true
    return if c = '\n' then [] else [.quoted [c]])

/-- Reads the parts of a word up to a character that ends it. -/
def parts (inner : Inner) (ends : Char → Bool) : Reader (List Part) := do
  let groups ← many (quotedParts inner <|> (do return [← dollar inner false]) <|>
    (do return [← backquoted inner false]) <|>
    (do return [.bare (← while1 fun c => !ends c && !"'\"\\$\x60".toList.contains c)]))
  return groups.flatten

/-- Reads a word. -/
def shellWord (inner : Inner) : Reader (List Part) := do
  blanks
  match ← peek? with
  | some '#' => failure
  | _ =>
    let ps ← parts inner endsWord
    if ps.isEmpty then failure else return ps

/-- The lines of a text up to one that is the given mark, and the text behind it. -/
def upToMark (mark : List Char) : Nat → List Char → List Char × List Char
  | 0, s => (s, [])
  | n + 1, s =>
    let (line, rest) := s.span (· ≠ '\n')
    if line = mark ∨ rest = [] then ([], rest.drop 1)
    else
      let (more, after) := upToMark mark n (rest.drop 1)
      (line ++ '\n' :: more, after)

/-- Reads the mark of a text that stands on the following lines, and takes that text away from there. -/
def hereText (inner : Inner) : Reader (List Part) := do
  let markParts ← shellWord inner
  let mark := markParts.flatMap fun p => match p with | .bare t | .quoted t => t | _ => []
  let isPlain := markParts.all fun p => match p with | .bare _ => true | _ => false
  let s ← get
  let (line, rest) := s.span (· ≠ '\n')
  let (content, after) := upToMark mark rest.length (rest.drop 1)
  set (line ++ '\n' :: after)
  if isPlain then
    match (many (partInQuotes inner <|> (do char '"'; return .quoted ['"']))) content with
    | some (ps, _) => return ps
    | none => failure
  else return [.quoted content]

/-- Reads a redirection. -/
def redirection (inner : Inner) : Reader Redirection := do
  blanks
  let digits ← while_ Char.isDigit
  let from_ := fun (d : Nat) => if digits.isEmpty then d else (String.ofList digits).toNat?.getD d
  let file := fun (d : Nat) (k : RedirectionKind) => do return Redirection.file (from_ d) k (← shellWord inner)
  (do word ['>', '>']; file 1 .append) <|> (do word ['>', '&']; file 1 .copy) <|>
    (do word ['>', '|']; file 1 .write) <|> (do char '>'; file 1 .write) <|>
    (do word ['<', '<']; return .text (from_ 0) (← hereText inner)) <|> (do word ['<', '&']; file 0 .copy) <|>
    (do word ['<', '>']; file 0 .read) <|> (do char '<'; file 0 .read)

/-- Reads an assignment. -/
def assignment (inner : Inner) : Reader (List Char × List Part) := do
  blanks
  let n ← name
  char '='
  return (n, ← parts inner endsWord)

/-- Reads a word that may start a command. -/
def firstWord (inner : Inner) : Reader (List Part) := do
  let ps ← shellWord inner
  match ps with
  | [.bare t] => if reservedWords.contains t then failure else return ps
  | _ => return ps

/-- Reads a simple command. -/
def simpleCommand (inner : Inner) : Reader Command := do
  let s ← get
  let before ← many ((do return Sum.inl (← assignment inner)) <|> (do return Sum.inr (← redirection inner)))
  let first ← optional (firstWord inner)
  let after ← if first.isNone then pure [] else
    many ((do return Sum.inr (← redirection inner)) <|> (do return Sum.inl (← shellWord inner)))
  let assignments := before.filterMap Sum.getLeft?
  let words := first.toList ++ after.filterMap Sum.getLeft?
  let redirections := before.filterMap Sum.getRight? ++ after.filterMap Sum.getRight?
  if assignments.isEmpty && words.isEmpty && redirections.isEmpty then failure
  return .simple (s.count '\n') assignments words redirections

/-- Reads the redirections behind a command in several parts. -/
def trailing (inner : Inner) : Reader (List Redirection) := many (redirection inner)

/-- Reads one case of a selection. -/
def selectCase (inner : Inner) : Reader (List (List Part) × List Item) := do
  emptyLines
  blanks
  let _ ← optional (char '(')
  let patterns ← separated (firstWord inner) (do blanks; char '|')
  if patterns.isEmpty then failure
  blanks
  char ')'
  let body ← inner.items
  blanks
  let _ ← optional (word [';', ';'])
  emptyLines
  return (patterns, body)

/-- Reads a condition and what follows if it holds. -/
def branch (inner : Inner) : Reader (List Item × List Item) := do
  let condition ← inner.items
  reserved "then"
  return (condition, ← inner.items)

/-- Reads the body of a loop. -/
def loopBody (inner : Inner) : Reader (List Item) := do
  emptyLines
  reserved "do"
  let body ← inner.items
  reserved "done"
  return body

/-- Reads the words of a loop over words. -/
def loopWords (inner : Inner) : Reader (Option (List (List Part))) := do
  let words ← optional (do
    emptyLines
    reserved "in"
    many (shellWord inner))
  blanks
  let _ ← optional (char ';')
  return words

/-- Reads a command in several parts. -/
def compoundCommand (inner : Inner) : Reader Command :=
  (do
    blanks
    char '('
    let body ← inner.items
    blanks
    char ')'
    return .group true body (← trailing inner)) <|> (do
    reserved "\x7b"
    let body ← inner.items
    reserved "\x7d"
    return .group false body (← trailing inner)) <|> (do
    reserved "if"
    let first ← branch inner
    let more ← many (do reserved "elif"; branch inner)
    let last ← optional (do reserved "else"; inner.items)
    reserved "fi"
    return .choice (first :: more) (last.getD []) (← trailing inner)) <|> (do
    let untilWell ← (do reserved "while"; return false) <|> (do reserved "until"; return true)
    let condition ← inner.items
    return .loop untilWell condition (← loopBody inner) (← trailing inner)) <|> (do
    reserved "for"
    blanks
    let n ← name
    let words ← loopWords inner
    return .each n words (← loopBody inner) (← trailing inner)) <|> (do
    reserved "case"
    let w ← shellWord inner
    emptyLines
    reserved "in"
    let cases ← many (selectCase inner)
    emptyLines
    reserved "esac"
    return .select w cases (← trailing inner))

/-- Reads a command. -/
def command (inner : Inner) : Reader Command :=
  (do
    blanks
    let n ← name
    blanks
    char '('
    blanks
    char ')'
    emptyLines
    return .define n (← compoundCommand inner)) <|> compoundCommand inner <|> simpleCommand inner

/-- Reads a pipeline. -/
def pipeline (inner : Inner) : Reader Pipeline := do
  let negated ← optional (reserved "!")
  let commands ← separated (command inner) (do
    blanks
    char '|'
    if (← peek?) = some '|' then failure
    emptyLines)
  if commands.isEmpty then failure
  return .of negated.isSome commands

/-- Reads a chain of pipelines and what ends it. -/
def item (inner : Inner) : Reader Item := do
  emptyLines
  let first ← pipeline inner
  let rest ← many (do
    blanks
    let onSuccess ← (do word ['&', '&']; return true) <|> (do word ['|', '|']; return false)
    emptyLines
    return (onSuccess, ← pipeline inner))
  blanks
  let inBackground ← optional (char '&')
  if inBackground.isNone then
    let _ ← optional (do
      char ';'
      if (← peek?) = some ';' then failure)
  return .of first rest inBackground.isSome

/-- Reads a script. -/
def script (inner : Inner) : Reader (List Item) := do
  let items ← many (item inner)
  emptyLines
  blanks
  let _ ← optional (do char '#'; while_ (· ≠ '\n'))
  return items

/-- The readers for what is nested so many levels deep at most. -/
def Inner.ofDepth : Nat → Inner
  | 0 => ⟨failure, failure⟩
  | depth + 1 =>
    let inner := Inner.ofDepth depth
    ⟨script inner, parts inner (· = '\x7d')⟩

/-- The deepest nesting that is read. -/
def nestingLimit : Nat := 24

/-- Reads a whole script. -/
def read? (s : List Char) : Option (List Item) := (Inner.ofDepth nestingLimit).items.readAll? s

end LibraryGuard.Shell
