/-!
# UTF-8

`scan` reads bytes as characters: each step takes one well-formed character, or the longest run of bytes that begins one
without completing it (at least one byte). `decode` accepts only input without such runs; `decodeLossy` puts a replacement
character for each. `encode` writes characters as bytes.
-/

namespace LibraryGuard.Text.Utf8

/-- What the first bytes of an input are: a character, or a run of bytes that is none; and the bytes after it. -/
inductive Step where
  | character (c : Char) (rest : List UInt8)
  | broken (rest : List UInt8)
  deriving DecidableEq, Repr

/-- The bytes that a step leaves. -/
def Step.rest : Step → List UInt8
  | .character _ r => r
  | .broken r => r

@[simp] theorem Step.rest_character (c : Char) (r : List UInt8) : (Step.character c r).rest = r := rfl

@[simp] theorem Step.rest_broken (r : List UInt8) : (Step.broken r).rest = r := rfl

/-- Reads the bytes that follow a lead byte: `n` of them, the first between `lo` and `hi`, the others continuation bytes. -/
def follow : Nat → UInt8 → UInt8 → Nat → List UInt8 → Step
  | 0, _, _, acc, r => .character (Char.ofNat acc) r
  | _ + 1, _, _, _, [] => .broken []
  | n + 1, lo, hi, acc, b :: r =>
    if lo ≤ b ∧ b ≤ hi then follow n 0x80 0xBF (acc * 64 + (b.toNat - 0x80)) r else .broken (b :: r)

/-- The step at a lead byte. Overlong forms, surrogates and values past U+10FFFF begin no character. -/
def next (b : UInt8) (r : List UInt8) : Step :=
  if b < 0x80 then .character (Char.ofNat b.toNat) r
  else if b < 0xC2 then .broken r
  else if b < 0xE0 then follow 1 0x80 0xBF (b.toNat - 0xC0) r
  else if b = 0xE0 then follow 2 0xA0 0xBF 0 r
  else if b = 0xED then follow 2 0x80 0x9F 0xD r
  else if b < 0xF0 then follow 2 0x80 0xBF (b.toNat - 0xE0) r
  else if b = 0xF0 then follow 3 0x90 0xBF 0 r
  else if b < 0xF4 then follow 3 0x80 0xBF (b.toNat - 0xF0) r
  else if b = 0xF4 then follow 3 0x80 0x8F 4 r
  else .broken r

theorem follow_rest_length (n : Nat) (lo hi : UInt8) (acc : Nat) (r : List UInt8) :
    (follow n lo hi acc r).rest.length ≤ r.length := by
  induction n generalizing lo hi acc r with
  | zero => simp [follow]
  | succ n ih =>
    cases r with
    | nil => simp [follow]
    | cons b r =>
      rw [follow]
      split
      · exact Nat.le_succ_of_le (ih ..)
      · simp

theorem next_rest_length (b : UInt8) (r : List UInt8) : (next b r).rest.length ≤ r.length := by
  unfold next
  repeat' split
  all_goals simp [follow_rest_length]

/-- The characters of the input, with `none` for each run of bytes that is no character, put after those already read
(latest first). -/
def scanOnto (acc : List (Option Char)) : List UInt8 → List (Option Char)
  | [] => acc.reverse
  | b :: r =>
    match _ : next b r with
    | .character c rest => scanOnto (some c :: acc) rest
    | .broken rest => scanOnto (none :: acc) rest
termination_by bytes => bytes.length
decreasing_by
  all_goals
    have hr := next_rest_length b r
    rw [‹next b r = _›] at hr
    exact Nat.lt_succ_of_le hr

/-- The characters of the input, with `none` for each run of bytes that is no character. -/
def scan (bytes : List UInt8) : List (Option Char) := scanOnto [] bytes

/-- The text that the bytes encode, if they are well-formed throughout. -/
def decode (bytes : List UInt8) : Option (List Char) := (scan bytes).mapM id

/-- The text of the bytes, with U+FFFD for each run of bytes that is no character. -/
def decodeLossy (bytes : List UInt8) : List Char := (scan bytes).map fun c => c.getD '\uFFFD'

/-- The bytes of a text. -/
def encode (s : List Char) : List UInt8 := s.flatMap String.utf8EncodeChar

end LibraryGuard.Text.Utf8
