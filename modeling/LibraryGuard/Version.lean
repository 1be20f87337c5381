import LibraryGuard.Text.Blank
import LibraryGuard.Diagnostics

/-!
# Interface versions

A version is a triple of 32-bit numbers, compared number by number. Its text is the three numbers with points between them.
Reading accepts one to three numbers in decimal digits, with missing ones zero, and otherwise names the reason of the
leftmost part that offends. `packed` puts a triple into 24 bits with each number cut off at 255.
-/

namespace LibraryGuard

/-- A `major.minor.patch` interface version. -/
structure Version where
  major : UInt32
  minor : UInt32
  patch : UInt32
  deriving DecidableEq, Repr

namespace Version

/-- The version `0.0.0`, below which there is none. -/
def zero : Version := ⟨0, 0, 0⟩

instance : Inhabited Version := ⟨zero⟩

instance : LT Version where
  lt a b := a.major < b.major ∨ a.major = b.major ∧ (a.minor < b.minor ∨ a.minor = b.minor ∧ a.patch < b.patch)

instance : LE Version where
  le a b := ¬ b < a

instance (a b : Version) : Decidable (a < b) :=
  inferInstanceAs (Decidable (a.major < b.major ∨
    a.major = b.major ∧ (a.minor < b.minor ∨ a.minor = b.minor ∧ a.patch < b.patch)))

instance (a b : Version) : Decidable (a ≤ b) := inferInstanceAs (Decidable (¬ b < a))

instance : Ord Version where
  compare a b := if a < b then .lt else if b < a then .gt else .eq

instance : Max Version := ⟨fun a b => if a < b then b else a⟩

instance : Min Version := ⟨fun a b => if b < a then b else a⟩

/-- The text of a version: its three numbers in decimal, with points between them. -/
def text (v : Version) : String :=
  toString v.major.toNat ++ "." ++ toString v.minor.toNat ++ "." ++ toString v.patch.toNat

instance : ToString Version := ⟨text⟩

/-- The triple as the word `0x00AABBCC`, each number cut off at 255. -/
def packed (v : Version) : UInt32 :=
  (min v.major 0xFF <<< 16) ||| (min v.minor 0xFF <<< 8) ||| min v.patch 0xFF

/-- The eight hexadecimal digits of the packed triple. -/
def packedHex (v : Version) : String :=
  let digits := Nat.toDigits 16 v.packed.toNat
  String.ofList (List.replicate (8 - digits.length) '0' ++ digits)

/-- Why a text is no version. -/
inductive Fault where
  | tooManyComponents | notDecimal | outOfRange
  deriving DecidableEq, Repr

/-- The words for a fault. -/
def Fault.message : Fault → String
  | .tooManyComponents => "more than three components"
  | .notDecimal => "components must be decimal integers"
  | .outOfRange => "component out of range"

/-- A text that is no version, and why. -/
structure ParseError where
  input : String
  fault : Fault
  deriving DecidableEq, Repr

/-- The message of a text that is no version. -/
def ParseError.message (e : ParseError) : String :=
  "invalid version string `" ++ e.input ++ "`: " ++ e.fault.message

/-- A decimal digit, which ASCII alone has here. -/
def isDigit (c : Char) : Bool := '0' ≤ c && c ≤ '9'

/-- The number that digits stand for. -/
def decimal (digits : List Char) : Nat := digits.foldl (fun n c => 10 * n + (c.toNat - '0'.toNat)) 0

/-- Reads one component. -/
def component (s : List Char) : Except Fault UInt32 :=
  if s.isEmpty || !s.all isDigit then .error .notDecimal
  else if decimal s < UInt32.size then .ok (UInt32.ofNat (decimal s))
  else .error .outOfRange

/-- Reads the components from the left, at most as many as there are places. -/
def components : Nat → List (List Char) → Except Fault (List UInt32)
  | _, [] => .ok []
  | 0, _ :: _ => .error .tooManyComponents
  | n + 1, s :: rest => do
    let v ← component s
    let vs ← components n rest
    return v :: vs

/-- The version with the given components, missing ones being zero. -/
def ofComponents (vs : List UInt32) : Version := ⟨vs.getD 0 0, vs.getD 1 0, vs.getD 2 0⟩

/-- Reads a version. -/
def parse (s : String) : Except ParseError Version :=
  match components 3 (Text.pieces '.' s.toList) with
  | .ok vs => .ok (ofComponents vs)
  | .error f => .error ⟨s, f⟩

/-- Reads a version, with a warning and `0.0.0` for a text that is none. -/
def parseLenient (s : String) : Logged Version :=
  match parse s with
  | .ok v => pure v
  | .error e => do
    Logged.warn .version (e.message ++ "; treating it as 0.0.0, runtime link errors may occur")
    return zero

end Version

end LibraryGuard
