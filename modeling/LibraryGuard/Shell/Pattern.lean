/-!
# Patterns of the shell

In a pattern a star stands for any text, a question mark for any character and a bracket for one of some characters. Each
character of a pattern is marked as active or not; those that are not active stand for themselves.
-/

namespace LibraryGuard.Shell

/-- A character of a pattern, and whether it may have a meaning of its own. -/
structure PatternChar where
  char : Char
  isActive : Bool
  deriving DecidableEq, Repr

/-- A piece of a pattern. -/
inductive PatternPiece where
  | exact (c : Char)
  | any
  | star
  | oneOf (isNegated : Bool) (ranges : List (Char × Char))
  deriving DecidableEq, Repr

namespace PatternPiece

/-- The ranges of a bracket. -/
def ranges : List Char → List (Char × Char)
  | a :: '-' :: b :: r => (a, b) :: ranges r
  | a :: r => (a, a) :: ranges r
  | [] => []

/-- The pieces of a pattern, at most so many. -/
def ofChars : Nat → List PatternChar → List PatternPiece
  | 0, _ | _, [] => []
  | n + 1, p :: rest =>
    if !p.isActive then .exact p.char :: ofChars n rest
    else
      match p.char with
      | '*' => .star :: ofChars n rest
      | '?' => .any :: ofChars n rest
      | '[' =>
        let (isNegated, body) := match rest with
          | q :: r => if q.isActive && q.char = '!' then (true, r) else (false, rest)
          | [] => (false, [])
        let first := body.take 1
        let (more, after) := (body.drop 1).span (·.char ≠ ']')
        match after with
        | [] => .exact '[' :: ofChars n rest
        | _ :: after => .oneOf isNegated (ranges ((first ++ more).map (·.char))) :: ofChars n after
      | c => .exact c :: ofChars n rest

/-- Whether a text is of the form that pieces describe. -/
def matchAll : List PatternPiece → List Char → Bool
  | [], s => s.isEmpty
  | .star :: p, [] => matchAll p []
  | .star :: p, c :: r => matchAll p (c :: r) || matchAll (.star :: p) r
  | _ :: _, [] => false
  | .exact d :: p, c :: r => c = d && matchAll p r
  | .any :: p, _ :: r => matchAll p r
  | .oneOf isNegated rs :: p, c :: r => (rs.any fun (a, b) => a ≤ c && c ≤ b) != isNegated && matchAll p r
termination_by p s => (s.length, p.length)

end PatternPiece

/-- Whether a text matches a pattern. -/
def matchesPattern (pattern : List PatternChar) (s : List Char) : Bool :=
  PatternPiece.matchAll (PatternPiece.ofChars pattern.length pattern) s

/-- A text without its shortest or longest beginning that matches. -/
def trimStart (longest : Bool) (pattern : List PatternChar) (s : List Char) : List Char :=
  let cuts := List.range (s.length + 1)
  match (if longest then cuts.reverse else cuts).find? fun n => matchesPattern pattern (s.take n) with
  | some n => s.drop n
  | none => s

/-- A text without its shortest or longest end that matches. -/
def trimEnd (longest : Bool) (pattern : List PatternChar) (s : List Char) : List Char :=
  let cuts := List.range (s.length + 1)
  match (if longest then cuts else cuts.reverse).find? fun n => matchesPattern pattern (s.drop n) with
  | some n => s.take n
  | none => s

end LibraryGuard.Shell
