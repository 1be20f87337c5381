import LibraryGuard.Files
import LibraryGuard.Text.Blank

/-!
# Trees of files

A tree holds a node at each place, a place being the names on the way from the root. A path is followed step by step from the
root or from the tree's own place: every step but the first is taken in a directory, `.` stays, `..` goes up, and a link is
replaced by the steps it holds. A slash at the end of a path is one more step `.`. Following gives up after forty links.
-/

namespace LibraryGuard

/-- What stands at a place of a tree. -/
inductive Node where
  | file (content : Bytes) (mayRun : Bool)
  | directory
  | link (target : Path)
  /-- A thing that is read as empty and is no regular file. -/
  | device
  /-- A program of the machine, known by its name only. -/
  | tool (name : String)
  deriving DecidableEq, Repr

/-- The steps that a path takes. -/
def Path.steps (p : Path) : List String :=
  ((Text.pieces '/' p.chars).filter (· ≠ [])).map String.ofList ++
    (if p.chars.getLast? = some '/' then ["."] else [])

/-- The names on the way from the root to a node. -/
abbrev Place := List String

/-- The place where a path starts, seen from the given place. -/
def Path.start (p : Path) (origin : Place) : Place := if p.isAbsolute then [] else origin

/-- The nodes of a tree by their places, and the place from which relative paths start. -/
structure FileTree where
  nodes : List (Place × Node) := []
  here : Place := []
  deriving Repr

namespace FileTree

/-- The longest name that a step can have, in bytes. -/
def nameLimit : Nat := 255

/-- The number of bytes that a path has to stay below. -/
def pathLimit : Nat := 4096

/-- The number of links that following a path may replace. -/
def linkLimit : Nat := 40

/-- The node at a place. The root is a directory in every tree. -/
def node? (t : FileTree) (place : Place) : Option Node :=
  if place = [] then some .directory else t.nodes.lookup place

/-- Takes steps from a place, replacing at most the given number of links. -/
def follow (t : FileTree) : Nat → Place → List String → Except AccessFault Place
  | _, place, [] => .ok place
  | links, place, step :: rest =>
    match t.node? place with
    | none => .error .missing
    | some .directory =>
      if step = "." then t.follow links place rest
      else if step = ".." then t.follow links place.dropLast rest
      else if nameLimit < step.utf8ByteSize then .error .nameTooLong
      else
        match t.node? (place ++ [step]), links with
        | none, _ => .error .missing
        | some (.link _), 0 => .error .tooManyLinks
        | some (.link target), links + 1 => t.follow links (target.start place) (target.steps ++ rest)
        | some _, links => t.follow links (place ++ [step]) rest
    | some _ => .error .notDirectory
termination_by links _ steps => (links, steps.length)

/-- The place that a path leads to. -/
def place (t : FileTree) (p : Path) : Except AccessFault Place :=
  if p.chars.contains '\x00' then .error .nulInName
  else if p.text = "" then .error .missing
  else if pathLimit ≤ p.text.utf8ByteSize then .error .nameTooLong
  else t.follow linkLimit (p.start t.here) p.steps

/-- The node that a path leads to. -/
def find (t : FileTree) (p : Path) : Except AccessFault Node := do
  match t.node? (← t.place p) with
  | some n => return n
  | none => .error .missing

/-- The content that reading a node gives. -/
def contentOf : Node → Except AccessFault Bytes
  | .file content _ => .ok content
  | .directory => .error .isDirectory
  | .link _ | .device | .tool _ => .ok #[]

/-- The content of the file that a path leads to. -/
def read (t : FileTree) (p : Path) : Except AccessFault Bytes := do contentOf (← t.find p)

/-- Whether a path leads to a regular file. -/
def isFile (t : FileTree) (p : Path) : Bool :=
  match t.find p with
  | .ok (.file ..) | .ok (.tool _) => true
  | _ => false

/-- Whether a path leads to anything. -/
def isPresent (t : FileTree) (p : Path) : Bool :=
  match t.find p with
  | .ok _ => true
  | .error _ => false

/-- The tree as the guard sees it. -/
def files (t : FileTree) : Files := ⟨t.isFile, t.isPresent, t.read⟩

/-- The tree with a node at a place, whatever stood there. -/
def set (t : FileTree) (place : Place) (n : Node) : FileTree :=
  { t with nodes := (place, n) :: t.nodes.filter (·.1 ≠ place) }

/-- Goes down from a place, adding the directories that are missing, and says where it arrives. -/
def descend (t : FileTree) (place : Place) : List String → FileTree × Place
  | [] => (t, place)
  | step :: rest =>
    match t.follow linkLimit place [step] with
    | .ok next => t.descend next rest
    | .error _ => (t.set (place ++ [step]) .directory).descend (place ++ [step]) rest

/-- Puts a node at the name in a directory. A file put where a link stands goes where the link leads. -/
def putAt (t : FileTree) : Nat → Place → String → Node → FileTree
  | 0, directory, name, n => t.set (directory ++ [name]) n
  | links + 1, directory, name, n =>
    match n, t.node? (directory ++ [name]) with
    | .file .., some (.link target) =>
      let (t, d) := t.descend (target.start directory) target.steps.dropLast
      t.putAt links d (target.steps.getLast?.getD name) n
    | .directory, some .directory => t
    | _, _ => t.set (directory ++ [name]) n

/-- Puts a node where a path leads, with the directories above it. -/
def put (t : FileTree) (p : Path) (n : Node) : FileTree :=
  let steps := p.steps.filter (· ≠ ".")
  match steps.getLast? with
  | none => t
  | some name =>
    let (t, d) := t.descend (p.start t.here) steps.dropLast
    t.putAt linkLimit d name n

/-- Removes what a path names, with everything below it. A link is removed and not followed. -/
def remove (t : FileTree) (p : Path) : FileTree :=
  let steps := p.steps.filter (· ≠ ".")
  match t.follow linkLimit (p.start t.here) steps.dropLast with
  | .error _ => t
  | .ok d =>
    let gone := d ++ steps.getLast?.toList
    { t with nodes := t.nodes.filter fun (place, _) => !gone.isPrefixOf place }

end FileTree

end LibraryGuard
