import LibraryGuard.Toml.Text
import LibraryGuard.Toml.Value

/-!
# Numbers of a document

An integer is decimal with a sign or none and no leading zeros, or hexadecimal, octal or binary after its mark, and fits 64
signed bits. A float is a decimal integer with a fraction, an exponent or both, or one of the words for infinity and for what
is no number; it may round to infinity only below zero. One underscore may stand between two digits.
-/

namespace LibraryGuard.Toml

open Text (Reader)
open Text.Reader

/-- Reads a sign, or none, as whether it is negative. -/
def sign : Reader Bool := do
  match ← optional (oneOf ['+', '-']) with
  | some '-' => return true
  | _ => return false

/-- Reads digits, with an underscore between two of them or none. -/
def digitGroups (isDigit : Char → Bool) : Reader (List Char) := do
  let first ← satisfying isDigit
  let rest ← many (satisfying isDigit <|> (do char '_'; satisfying isDigit))
  return first :: rest

/-- Reads decimal digits that start with no superfluous zero. -/
def wholeDigits : Reader (List Char) := do
  if (← peek?) = some '0' then
    char '0'
    return ['0']
  digitGroups Char.isDigit

/-- Whether a number fits 64 signed bits. -/
def fitsInteger (n : Int) : Bool := Int64.minValue.toInt ≤ n && n ≤ Int64.maxValue.toInt

/-- An integer, if it fits. -/
def integerOf (n : Int) : Reader Value := if fitsInteger n then return .integer n else failure

/-- Reads an integer after the mark of its base. -/
def markedInteger (mark : Char) (base : Nat) (isDigit : Char → Bool) : Reader Value := do
  word ['0', mark]
  integerOf (valueInBase base (← digitGroups isDigit))

/-- Reads a decimal integer. -/
def decimalInteger : Reader Value := do
  let negative ← sign
  let n : Int := valueInBase 10 (← wholeDigits)
  integerOf (if negative then -n else n)

/-- Reads an integer. -/
def integer : Reader Value :=
  markedInteger 'x' 16 isHexDigit <|> markedInteger 'o' 8 (fun c => '0' ≤ c && c ≤ '7') <|>
    markedInteger 'b' 2 (fun c => c = '0' || c = '1') <|> decimalInteger

/-- Reads a fraction. -/
def fraction : Reader (List Char) := do
  char '.'
  digitGroups Char.isDigit

/-- Reads an exponent. -/
def exponent : Reader Int := do
  let _ ← oneOf ['e', 'E']
  let negative ← sign
  let n : Int := valueInBase 10 (← digitGroups Char.isDigit)
  return if negative then -n else n

/-- Reads a float in digits. -/
def decimalFloat : Reader Value := do
  let negative ← sign
  let whole ← wholeDigits
  let places ← optional fraction
  let power ← if places.isNone then some <$> exponent else optional exponent
  let places := places.getD []
  let x := Decimal.Binary64.ofDecimal negative (valueInBase 10 (whole ++ places)) (power.getD 0 - places.length)
  if x = .infinite false then failure else return .float x

/-- Reads the word for infinity or for what is no number. -/
def specialFloat : Reader Value := do
  let negative ← sign
  (do word ['i', 'n', 'f']; return .float (.infinite negative)) <|> (do word ['n', 'a', 'n']; return .float .nan)

end LibraryGuard.Toml
