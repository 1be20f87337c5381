/-!
# Reading a text from its front

A reader takes something from the front of a text or fails. Readers in sequence take one after the other, and of two
alternatives the second is tried on the same text when the first fails. Repetition is bounded by the length of the text, which
is enough for a reader that takes at least one character each time.
-/

namespace LibraryGuard.Text

/-- What is read from the front of a text, and the rest of the text. -/
abbrev Reader := StateT (List Char) Option

namespace Reader

variable {α β : Type}

/-- Reads a whole text. -/
def readAll? (r : Reader α) (s : List Char) : Option α :=
  match r s with
  | some (a, []) => some a
  | _ => none

/-- Takes the next character if it has a property. -/
def satisfying (p : Char → Bool) : Reader Char := fun s =>
  match s with
  | c :: r => if p c then some (c, r) else none
  | [] => none

/-- Takes a certain character. -/
def char (c : Char) : Reader Unit := do let _ ← satisfying (· = c)

/-- Takes one of some characters. -/
def oneOf (cs : List Char) : Reader Char := satisfying cs.contains

/-- Takes a certain word. -/
def word : List Char → Reader Unit
  | [] => pure ()
  | c :: cs => do
    char c
    word cs

/-- Takes all characters up to the first one without a property. -/
def while_ (p : Char → Bool) : Reader (List Char) := fun s => some (s.span p)

/-- Takes at least one character with a property, and all that follow it. -/
def while1 (p : Char → Bool) : Reader (List Char) := do
  let c ← satisfying p
  let cs ← while_ p
  return c :: cs

/-- Takes so many characters with a property. -/
def exactly : Nat → (Char → Bool) → Reader (List Char)
  | 0, _ => return []
  | n + 1, p => do
    let c ← satisfying p
    let cs ← exactly n p
    return c :: cs

/-- Looks at the next character. -/
def peek? : Reader (Option Char) := fun s => some (s.head?, s)

/-- Reads as often as it succeeds, at most so many times. -/
def upTo (r : Reader α) : Nat → Reader (List α)
  | 0 => return []
  | n + 1 => (do
    let a ← r
    let rest ← upTo r n
    return a :: rest) <|> return []

/-- Reads as often as it succeeds. -/
def many (r : Reader α) : Reader (List α) := fun s => upTo r s.length s

/-- Reads items with a separator between them. A separator that no item follows is left. -/
def separated (item : Reader α) (separator : Reader β) : Reader (List α) :=
  (do
    let first ← item
    let rest ← many (do
      let _ ← separator
      item)
    return first :: rest) <|> return []

/-- Takes the end of the text. -/
def atEnd : Reader Unit := fun s => if s.isEmpty then some ((), []) else none

end Reader

end LibraryGuard.Text
