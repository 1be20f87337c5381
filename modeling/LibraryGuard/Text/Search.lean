/-!
# Finding and replacing a piece of text

`after?` removes a pattern from the front of a text and `cut?` divides a text at the first occurrence of one. `contains` and
`replace` are stated through `cut?`: a replacement goes from left to right and never looks at what it has put in.
-/

namespace LibraryGuard.Text

/-- What follows the pattern in a text that begins with it. -/
def after? : List Char → List Char → Option (List Char)
  | [], s => some s
  | _ :: _, [] => none
  | p :: ps, c :: s => if p = c then after? ps s else none

theorem after?_eq_some_iff {pattern s rest : List Char} : after? pattern s = some rest ↔ s = pattern ++ rest := by
  induction pattern generalizing s with
  | nil => simp [after?]
  | cons p ps ih =>
    cases s with
    | nil => simp [after?]
    | cons c s =>
      by_cases h : p = c
      · simp [after?, h, ih]
      · simp [after?, h, Ne.symm h]

/-- What stands before and after the first occurrence of the pattern. -/
def cut? (pattern : List Char) : List Char → Option (List Char × List Char)
  | [] => if pattern.isEmpty then some ([], []) else none
  | c :: r =>
    match after? pattern (c :: r) with
    | some rest => some ([], rest)
    | none => (cut? pattern r).map fun (before, after) => (c :: before, after)

/-- Whether the pattern occurs in the text. -/
def contains (pattern s : List Char) : Bool := (cut? pattern s).isSome

theorem cut?_eq_some {pattern s before after : List Char} (h : cut? pattern s = some (before, after)) :
    s = before ++ pattern ++ after := by
  induction s generalizing before after with
  | nil => simp_all [cut?]
  | cons c r ih =>
    unfold cut? at h
    split at h
    next rest ha =>
      obtain ⟨rfl, rfl⟩ : [] = before ∧ rest = after := by simpa using h
      simpa using after?_eq_some_iff.mp ha
    next =>
      obtain ⟨⟨b, a⟩, hc, he⟩ := Option.map_eq_some_iff.mp h
      obtain ⟨rfl, rfl⟩ : c :: b = before ∧ a = after := by simpa using he
      simp [ih hc]

/-- The text with every occurrence of the pattern replaced, from left to right. An empty pattern replaces nothing. -/
def replace (pattern replacement s : List Char) : List Char :=
  if _ : pattern = [] then s
  else
    match _ : cut? pattern s with
    | none => s
    | some (before, after) => before ++ replacement ++ replace pattern replacement after
termination_by s.length
decreasing_by
  have hpos := List.length_pos_iff.mpr ‹pattern ≠ []›
  have hlen := congrArg List.length (cut?_eq_some ‹cut? pattern s = some (before, after)›)
  simp only [List.length_append] at hlen
  omega

end LibraryGuard.Text
