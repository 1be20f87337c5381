import LibraryGuard.Text.Reader

/-!
# Arithmetic of the shell

An expression of 64-bit integers, names of parameters, the usual operators by their rank, and parentheses. Comparisons
give one or zero, and a name that is unset counts as zero. An expression may assign its value to a name. A division by
zero and everything that is no expression have no value.
-/

namespace LibraryGuard.Shell

open Text (Reader)
open Text.Reader

/-- An operator of two numbers. -/
abbrev Operator := List Char × (Int64 → Int64 → Option Int64)

/-- One for what holds, and zero otherwise. -/
def truth (b : Bool) : Option Int64 := some (if b then 1 else 0)

/-- The operators of two numbers, from those that bind least. -/
def ranks : List (List Operator) :=
  let nonzero := fun (f : Int64 → Int64 → Int64) (a b : Int64) => if b = 0 then none else some (f a b)
  [[("||".toList, fun a b => truth (a ≠ 0 || b ≠ 0))], [("&&".toList, fun a b => truth (a ≠ 0 && b ≠ 0))],
    [("|".toList, fun a b => some (a ||| b))], [("^".toList, fun a b => some (a ^^^ b))],
    [("&".toList, fun a b => some (a &&& b))],
    [("==".toList, fun a b => truth (a = b)), ("!=".toList, fun a b => truth (a ≠ b))],
    [("<=".toList, fun a b => truth (a ≤ b)), (">=".toList, fun a b => truth (a ≥ b)),
      ("<".toList, fun a b => truth (a < b)), (">".toList, fun a b => truth (a > b))],
    [("<<".toList, fun a b => some (a <<< b)), (">>".toList, fun a b => some (a >>> b))],
    [("+".toList, fun a b => some (a + b)), ("-".toList, fun a b => some (a - b))],
    [("*".toList, fun a b => some (a * b)), ("/".toList, nonzero (· / ·)), ("%".toList, nonzero (· % ·))]]

/-- The operators of one number. -/
def signs : List (Char × (Int64 → Int64)) :=
  [('-', fun n => -n), ('+', id), ('!', fun n => if n = 0 then 1 else 0), ('~', fun n => ~~~n)]

/-- The number that digits stand for in a base. -/
def inBase (base : Nat) (digits : List Char) : Int64 :=
  Int64.ofNat (digits.foldl (fun n c =>
    base * n + (if c.isDigit then c.toNat - '0'.toNat else c.toLower.toNat - 'a'.toNat + 10)) 0)

/-- Whether a character is a digit of base sixteen. -/
def isHex (c : Char) : Bool := c.isDigit || ('a' ≤ c.toLower && c.toLower ≤ 'f')

/-- Reads a number: in base sixteen, eight or ten, by how it starts. -/
def number : Reader Int64 :=
  (do
    char '0'
    let _ ← oneOf ['x', 'X']
    return inBase 16 (← while1 isHex)) <|> (do
    char '0'
    return inBase 8 (← while_ isOctalDigit)) <|> (do
    return inBase 10 (← while1 Char.isDigit))
where
  isOctalDigit (c : Char) : Bool := '0' ≤ c && c ≤ '7'

/-- Skips blanks and line ends. -/
def gaps : Reader Unit := do let _ ← while_ fun c => c = ' ' || c = '\t' || c = '\n'

/-- Reads the name of a parameter, with a dollar sign and braces or without. -/
def operandName : Reader (List Char) := do
  let _ ← optional (char '$')
  let _ ← optional (char '\x7b')
  let n ← while1 fun c => c.isAlphanum || c = '_'
  let _ ← optional (char '\x7d')
  return n

/-- Reads a number, a name, or what the given reader reads between parentheses, with at most so many signs before it. -/
def operand (value : List Char → Int64) (inner : Reader Int64) : Nat → Reader Int64
  | 0 => failure
  | limit + 1 => do
    gaps
    (do
      char '('
      let n ← inner
      gaps
      char ')'
      return n) <|> (do
      let c ← oneOf (signs.map (·.1))
      let n ← operand value inner limit
      return ((signs.lookup c).getD id) n) <|> number <|> (do return value (← operandName))

/-- Reads operands of the next rank with operators of this rank between them. -/
def chain (operators : List Operator) (next : Reader Int64) : Reader Int64 := do
  let first ← next
  let more ← many (do
    gaps
    let f ← operators.foldr (fun (o, f) r => (do word o; return f) <|> r) failure
    return (f, ← next))
  match more.foldlM (fun a (f, b) => f a b) first with
  | some n => return n
  | none => failure

/-- Reads an expression with at most so many parentheses open at once. -/
def arithmetic (value : List Char → Int64) : Nat → Reader Int64
  | 0 => failure
  | depth + 1 => do
    let inner := arithmetic value depth
    let n ← ranks.foldr chain (operand value inner 8)
    (do
      gaps
      char '?'
      let a ← inner
      gaps
      char ':'
      let b ← inner
      return if n = 0 then b else a) <|> return n

/-- Reads an assignment to a name: the name, and the operator of its old value and the new one, if there is one. -/
def assignmentTo : Reader (List Char × Option (Int64 → Int64 → Option Int64)) := do
  gaps
  let n ← while1 fun c => c.isAlphanum || c = '_'
  gaps
  let f ← optional (ranks.flatten.foldr (fun (o, f) r => (do word o; return f) <|> r) failure)
  char '='
  if (← peek?) = some '=' then failure
  return (n, f)

/-- The value of an expression, and the name that it is assigned to. -/
def evaluate? (value : List Char → Int64) (s : List Char) : Option (Int × Option (List Char)) :=
  let whole : Reader (Int × Option (List Char)) := do
    let target ← optional assignmentTo
    let n ← arithmetic value 8
    gaps
    let _ ← atEnd
    match target with
    | none => return (n.toInt, none)
    | some (name, none) => return (n.toInt, some name)
    | some (name, some f) =>
      match f (value name) n with
      | some n => return (n.toInt, some name)
      | none => failure
  whole.readAll? s

end LibraryGuard.Shell
