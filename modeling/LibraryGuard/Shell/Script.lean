import LibraryGuard.Text.Reader

/-!
# Shell scripts

A script is a list of chains of pipelines of commands. Words are made of parts, some of which stand for a text that is only
known when the script runs. A script is a sequence of bytes: in a text of this folder each character stands for one byte.
-/

namespace LibraryGuard.Shell

/-- What becomes of the value of a parameter. -/
inductive ParameterUse where
  | value
  | length
  /-- The word instead, where the parameter is unset (or, if so told, empty). -/
  | otherwise (alsoEmpty : Bool)
  /-- The word instead, which the parameter is set to, where it is unset. -/
  | assigned (alsoEmpty : Bool)
  /-- The word instead, where the parameter is set. -/
  | instead (alsoEmpty : Bool)
  /-- An error where the parameter is unset. -/
  | demanded (alsoEmpty : Bool)
  /-- The value without a beginning or an end that matches the word as a pattern. -/
  | trimmed (atEnd : Bool) (longest : Bool)
  deriving DecidableEq, Repr

/-- What a redirection does. -/
inductive RedirectionKind where
  | write | append | read | copy
  deriving DecidableEq, Repr

mutual

/-- A part of a word. -/
inductive Part where
  | bare (text : List Char)
  | quoted (text : List Char)
  | parameter (name : List Char) (use : ParameterUse) (word : List Part) (isQuoted : Bool)
  | output (script : List Item) (isQuoted : Bool)
  | number (expression : List Char) (isQuoted : Bool)

/-- A command. -/
inductive Command where
  /-- Assignments, words and redirections, with the number of line ends behind the command. -/
  | simple (below : Nat) (assignments : List (List Char × List Part)) (words : List (List Part))
      (redirections : List Redirection)
  | group (isApart : Bool) (body : List Item) (redirections : List Redirection)
  | choice (branches : List (List Item × List Item)) (last : List Item) (redirections : List Redirection)
  | loop (untilWell : Bool) (condition body : List Item) (redirections : List Redirection)
  | each (name : List Char) (words : Option (List (List Part))) (body : List Item) (redirections : List Redirection)
  | select (word : List Part) (cases : List (List (List Part) × List Item)) (redirections : List Redirection)
  | define (name : List Char) (body : Command)

/-- Where a descriptor leads. -/
inductive Redirection where
  | file (descriptor : Nat) (kind : RedirectionKind) (target : List Part)
  | text (descriptor : Nat) (content : List Part)

/-- Commands that are connected, the output of each with the input of the next. -/
inductive Pipeline where
  | of (isNegated : Bool) (commands : List Command)

/-- A chain of pipelines: each further one runs if the one before ended well, or if it did not. -/
inductive Item where
  | of (first : Pipeline) (rest : List (Bool × Pipeline)) (inBackground : Bool)

end

end LibraryGuard.Shell
