import LibraryGuard.Toml.Value

/-!
# The tables of a document while it is read

Tables come into being in three ways: a header defines one, the path of a header implies those on the way, and a dotted key
makes those on its way. A header may define an implied table but none that is defined or made by a dotted key; a dotted key
may go only through tables that are not defined, and put an entry only into one made by a dotted key. No key is given twice.
-/

namespace LibraryGuard.Toml

/-- How a table came into being. -/
inductive Origin where
  | defined | implied | dotted
  deriving DecidableEq, Repr

/-- A value, a table or an array of tables of a document that is being read. -/
inductive Node where
  | leaf (value : Value)
  | table (origin : Origin) (entries : List (String × Node))
  | array (tables : List Node)
  deriving Repr

namespace Node

/-- A table without entries. -/
def empty (origin : Origin) : Node := .table origin []

mutual

/-- The value that a node stands for. -/
def value : Node → Value
  | .leaf v => v
  | .table _ entries => .table (entryValues entries)
  | .array tables => .array (values tables)

/-- The values of the entries of a table. -/
def entryValues : List (String × Node) → List (String × Value)
  | [] => []
  | e :: rest => entryValue e :: entryValues rest

/-- The value of one entry. -/
def entryValue : String × Node → String × Value
  | (key, n) => (key, value n)

/-- The values of the tables of an array. -/
def values : List Node → List Value
  | [] => []
  | n :: rest => value n :: values rest

end

/-- The entries with one put in: in the place of the entry with its key, or at the end. -/
def putEntry (entries : List (String × Node)) (key : String) (n : Node) : List (String × Node) :=
  if (entries.lookup key).isSome then entries.map fun e => if e.1 = key then (key, n) else e
  else entries ++ [(key, n)]

/-- Edits the table that a path leads to. Tables missing on the way are made, and an array of tables is entered at its last
one. A path of a dotted key goes through no defined table. -/
def editAt (way : Origin) (edit : Node → Option Node) : List String → Node → Option Node
  | [], n => edit n
  | key :: path, .table origin entries =>
    let child : Option Node :=
      match entries.lookup key with
      | none => editAt way edit path (empty way)
      | some (.leaf _) => none
      | some (.array tables) =>
        (tables.getLast?.bind (editAt way edit path)).map fun last => .array (tables.dropLast ++ [last])
      | some (.table made inner) =>
        if way = .dotted ∧ made = .defined then none else editAt way edit path (.table made inner)
    child.map fun n => .table origin (putEntry entries key n)
  | _ :: _, _ => none

/-- Puts an entry with a new key into a table. The table has to be made by a dotted key if the entry has a dotted key, and
must not be otherwise. -/
def addLeaf (isDotted : Bool) (key : String) (v : Value) : Node → Option Node
  | .table origin entries =>
    if decide (origin = .dotted) = isDotted ∧ (entries.lookup key).isNone then
      some (.table origin (entries ++ [(key, .leaf v)]))
    else none
  | _ => none

/-- Puts a value at the path and key of a dotted key. -/
def insert (path : List String) (key : String) (v : Value) (n : Node) : Option Node :=
  editAt .dotted (addLeaf (!path.isEmpty) key v) path n

/-- Defines a table in a table. One that is implied so far moves to the end. -/
def define (key : String) : Node → Option Node
  | .table origin entries =>
    match entries.lookup key with
    | none => some (.table origin (entries ++ [(key, empty .defined)]))
    | some (.table .implied inner) =>
      some (.table origin (entries.filter (·.1 ≠ key) ++ [(key, .table .defined inner)]))
    | some _ => none
  | _ => none

/-- Adds a table to an array of tables. -/
def extend (key : String) : Node → Option Node
  | .table origin entries =>
    match entries.lookup key with
    | none => some (.table origin (putEntry entries key (.array [empty .defined])))
    | some (.array tables) => some (.table origin (putEntry entries key (.array (tables ++ [empty .defined]))))
    | some _ => none
  | _ => none

/-- Defines the table that a header names, or adds it to the array that the header names. -/
def header (isArray : Bool) (path : List String) (n : Node) : Option Node := do
  let key ← path.getLast?
  editAt .implied (if isArray then extend key else define key) path.dropLast n

/-- Puts a value at a dotted key of the table that a header has opened. -/
def insertUnder (opened path : List String) (key : String) (v : Value) (n : Node) : Option Node :=
  editAt .implied (insert path key v) opened n

end Node

end LibraryGuard.Toml
