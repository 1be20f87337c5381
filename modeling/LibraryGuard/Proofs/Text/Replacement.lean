import LibraryGuard.Proofs.Text.Search
import Mathlib.Tactic.LinearCombination
import Mathlib.Tactic.Zify

/-!
# Replacing a pattern

A replacement goes through a text from left to right: where the text goes on with the pattern it puts in the other text and skips
the pattern, and elsewhere it keeps a character (`replace_append_self`, `replace_cons`). `Replaces` is one text got from another
by replacing some of the occurrences of the pattern, as many as said. The pattern is *marked* if its first character is not in
the rest of it, so that no two occurrences overlap. Then all occurrences are replaced by `replace` (`replaces_replace`), only that
replaces as many (`Replaces.eq_replace`), and unless the pattern is replaced by itself the two texts determine how many were
replaced (`Replaces.count_unique`).
-/

namespace LibraryGuard.Text

variable {pattern replacement before after s t : List Char} {c : Char}

/-! ## From left to right -/

theorem replace_nil (pattern replacement : List Char) : replace pattern replacement [] = [] := by
  by_cases h : pattern = []
  · rw [replace, dif_pos h]
  · have hcut : cut? pattern [] = none := by simp [cut?, h]
    rw [replace, dif_neg h]
    split
    · rfl
    next h' => cases hcut.symm.trans h'

/-- The pattern is replaced where a text begins with it. -/
theorem replace_append_self (hne : pattern ≠ []) (replacement s : List Char) :
    replace pattern replacement (pattern ++ s) = replacement ++ replace pattern replacement s := by
  have hcut : cut? pattern (pattern ++ s) = some ([], s) := by
    obtain ⟨p, ps, rfl⟩ := List.exists_cons_of_ne_nil hne
    have hafter : after? (p :: ps) (p :: (ps ++ s)) = some s := after?_eq_some_iff.2 rfl
    rw [List.cons_append, cut?, hafter]
  rw [replace, dif_neg hne]
  split
  next h => cases hcut.symm.trans h
  next h =>
    obtain ⟨rfl, rfl⟩ := Prod.mk.inj (Option.some.inj (hcut.symm.trans h))
    rw [List.nil_append]

/-- A character is kept where a text does not begin with the pattern. -/
theorem replace_cons (h : ¬pattern <+: c :: s) (replacement : List Char) :
    replace pattern replacement (c :: s) = c :: replace pattern replacement s := by
  have hne : pattern ≠ [] := by
    rintro rfl
    exact h List.nil_prefix
  have hcut : cut? pattern (c :: s) = (cut? pattern s).map fun sides => (c :: sides.1, sides.2) := by
    rw [cut?, after?_eq_none_iff.2 h]
  rw [replace, dif_neg hne]
  conv => rhs; rw [replace, dif_neg hne]
  cases hs : cut? pattern s with
  | none =>
    rw [hs, Option.map_none] at hcut
    split
    · rfl
    next h' => cases hcut.symm.trans h'
  | some sides =>
    rw [hs, Option.map_some] at hcut
    split
    next h' => cases hcut.symm.trans h'
    next h' =>
      obtain ⟨rfl, rfl⟩ := Prod.mk.inj (Option.some.inj (hcut.symm.trans h'))
      rfl

/-- A replacement goes through a text by skipping the pattern where the text begins with it, and one character elsewhere. -/
theorem pattern_induction {motive : List Char → Prop} (hne : pattern ≠ []) (nil : motive [])
    (skip : ∀ s, motive s → motive (pattern ++ s)) (keep : ∀ c s, ¬pattern <+: c :: s → motive s → motive (c :: s))
    (s : List Char) : motive s := by
  induction h : s.length using Nat.strong_induction_on generalizing s with
  | _ n ih =>
    subst h
    cases s with
    | nil => exact nil
    | cons c r =>
      by_cases hp : pattern <+: c :: r
      · obtain ⟨rest, hrest⟩ := hp
        have hlt : rest.length < (c :: r).length := by
          have hpos := List.length_pos_iff.2 hne
          rw [← hrest, List.length_append]
          omega
        rw [← hrest]
        exact skip rest (ih _ hlt rest rfl)
      · exact keep c r hp (ih _ (Nat.lt_succ_self _) r rfl)

/-- A text in which the pattern does not occur is left as it is. -/
theorem replace_of_not_infix (h : ¬pattern <:+: s) (replacement : List Char) : replace pattern replacement s = s := by
  induction s with
  | nil => exact replace_nil pattern replacement
  | cons c s ih =>
    rw [List.infix_cons_iff, not_or] at h
    rw [replace_cons h.1, ih h.2]

/-- A character that the pattern lacks keeps the two sides of it apart. -/
theorem replace_append_cons (hne : pattern ≠ []) (hc : c ∉ pattern) (replacement before after : List Char) :
    replace pattern replacement (before ++ c :: after) =
      replace pattern replacement before ++ c :: replace pattern replacement after := by
  induction before using pattern_induction hne with
  | nil =>
    have hstop : ¬pattern <+: c :: after := by
      intro h
      rw [← List.nil_append (c :: after), prefix_append_cons_iff hc, List.prefix_nil] at h
      exact hne h
    rw [List.nil_append, replace_cons hstop, replace_nil, List.nil_append]
  | skip before ih => rw [List.append_assoc, replace_append_self hne, replace_append_self hne, ih, List.append_assoc]
  | keep b before hb ih =>
    have hb' : ¬pattern <+: b :: (before ++ c :: after) := by
      rwa [← List.cons_append, prefix_append_cons_iff hc]
    rw [List.cons_append, replace_cons hb', replace_cons hb, ih, List.cons_append]

/-! ## How often a pattern occurs -/

/-- The number of places at which a pattern occurs in a text. -/
def occurrences (pattern s : List Char) : Nat := s.tails.countP (pattern.isPrefixOf ·)

theorem occurrences_nil (hne : pattern ≠ []) : occurrences pattern [] = 0 := by
  cases pattern with
  | nil => exact absurd rfl hne
  | cons p ps => rfl

/-- A place is counted where a text begins with the pattern. -/
theorem occurrences_cons_of_pos (h : pattern <+: c :: s) : occurrences pattern (c :: s) = occurrences pattern s + 1 := by
  rw [occurrences, List.tails_cons, List.countP_cons_of_pos (List.isPrefixOf_iff_prefix.2 h), occurrences]

/-- No place is counted where a text does not begin with the pattern. -/
theorem occurrences_cons_of_neg (h : ¬pattern <+: c :: s) : occurrences pattern (c :: s) = occurrences pattern s := by
  rw [occurrences, List.tails_cons, List.countP_cons_of_neg (mt List.isPrefixOf_iff_prefix.1 h), occurrences]

/-- A character before a text takes no place away. -/
theorem occurrences_le_cons (pattern : List Char) (c : Char) (s : List Char) :
    occurrences pattern s ≤ occurrences pattern (c :: s) := by
  by_cases h : pattern <+: c :: s
  · rw [occurrences_cons_of_pos h]
    exact Nat.le_succ _
  · rw [occurrences_cons_of_neg h]

/-! ## Marked patterns -/

variable {mark : Char}

/-- A marked pattern begins only with its mark. -/
theorem IsMarked.not_prefix (h : IsMarked mark pattern) (hc : c ≠ mark) (s : List Char) : ¬pattern <+: c :: s := by
  obtain ⟨rest, rfl, -⟩ := h
  rw [List.cons_prefix_cons]
  exact fun hp => hc hp.1.symm

/-- Where there is no mark, nothing is replaced. -/
theorem IsMarked.replace_append (h : IsMarked mark pattern) (hs : mark ∉ s) (replacement t : List Char) :
    replace pattern replacement (s ++ t) = s ++ replace pattern replacement t := by
  induction s with
  | nil => rfl
  | cons c s ih =>
    rw [List.mem_cons, not_or] at hs
    rw [List.cons_append, replace_cons (h.not_prefix (Ne.symm hs.1) _), ih hs.2, List.cons_append]

/-- Where there is no mark, nothing is counted. -/
theorem IsMarked.occurrences_append (h : IsMarked mark pattern) (hs : mark ∉ s) (t : List Char) :
    occurrences pattern (s ++ t) = occurrences pattern t := by
  induction s with
  | nil => rfl
  | cons c s ih =>
    rw [List.mem_cons, not_or] at hs
    rw [List.cons_append, occurrences_cons_of_neg (h.not_prefix (Ne.symm hs.1) _), ih hs.2]

/-- Another text with the mark in front is kept as a whole if the pattern does not begin there. -/
theorem IsMarked.replace_append_other {other : List Char} (h : IsMarked mark pattern) (ho : IsMarked mark other)
    (hstart : ¬pattern <+: other ++ s) (replacement : List Char) :
    replace pattern replacement (other ++ s) = other ++ replace pattern replacement s := by
  obtain ⟨rest, rfl, hrest⟩ := ho
  rw [List.cons_append] at hstart ⊢
  rw [replace_cons hstart, h.replace_append hrest, List.cons_append]

/-- Nor is it counted then. -/
theorem IsMarked.occurrences_append_other {other : List Char} (h : IsMarked mark pattern) (ho : IsMarked mark other)
    (hstart : ¬pattern <+: other ++ s) : occurrences pattern (other ++ s) = occurrences pattern s := by
  obtain ⟨rest, rfl, hrest⟩ := ho
  rw [List.cons_append] at hstart ⊢
  rw [occurrences_cons_of_neg hstart, h.occurrences_append hrest]

/-- The pattern in front of a text adds one occurrence. -/
theorem IsMarked.occurrences_append_self (h : IsMarked mark pattern) (s : List Char) :
    occurrences pattern (pattern ++ s) = occurrences pattern s + 1 := by
  have hself := h
  obtain ⟨rest, rfl, hrest⟩ := h
  have hprefix : mark :: rest <+: mark :: (rest ++ s) := List.prefix_append (mark :: rest) s
  rw [List.cons_append, occurrences_cons_of_pos hprefix, hself.occurrences_append hrest]

/-! ## Replacing some of the occurrences -/

/-- One text comes from another by replacing some occurrences of the pattern, as many as said. -/
inductive Replaces (pattern replacement : List Char) : List Char → List Char → Nat → Prop where
  | nil : Replaces pattern replacement [] [] 0
  | keep (c : Char) {s t : List Char} {n : Nat} (h : Replaces pattern replacement s t n) :
      Replaces pattern replacement (c :: s) (c :: t) n
  | put {s t : List Char} {n : Nat} (h : Replaces pattern replacement s t n) :
      Replaces pattern replacement (pattern ++ s) (replacement ++ t) (n + 1)

namespace Replaces

variable {m n : Nat}

/-- A text may stay as it is in front. -/
theorem append_left (h : Replaces pattern replacement s t n) (front : List Char) :
    Replaces pattern replacement (front ++ s) (front ++ t) n := by
  induction front with
  | nil => exact h
  | cons c front ih => exact ih.keep c

/-- Each replacement takes the pattern away and puts the other text in. -/
theorem length_add (h : Replaces pattern replacement s t n) :
    t.length + n * pattern.length = s.length + n * replacement.length := by
  induction h with
  | nil => simp
  | keep c _ ih =>
    rw [List.length_cons, List.length_cons]
    omega
  | put _ ih =>
    rw [List.length_append, List.length_append, Nat.add_one_mul, Nat.add_one_mul]
    omega

/-- Replacing a pattern by itself changes nothing. -/
theorem eq_of_self (h : Replaces pattern pattern s t n) : s = t := by
  induction h with
  | nil => rfl
  | keep c _ ih => rw [ih]
  | put _ ih => rw [ih]

/-- No more occurrences are replaced than there are. -/
theorem le_occurrences (hp : IsMarked mark pattern) (h : Replaces pattern replacement s t n) : n ≤ occurrences pattern s := by
  induction h with
  | nil => exact Nat.zero_le _
  | keep c _ ih => exact ih.trans (occurrences_le_cons ..)
  | put _ ih =>
    rw [hp.occurrences_append_self]
    exact Nat.succ_le_succ ih

/-- Where there is no mark, the text has stayed as it was. -/
theorem exists_of_append (hp : IsMarked mark pattern) {front : List Char} (hfront : mark ∉ front)
    (h : Replaces pattern replacement (front ++ s) t n) : ∃ t', t = front ++ t' ∧ Replaces pattern replacement s t' n := by
  induction front generalizing t with
  | nil => exact ⟨t, rfl, h⟩
  | cons c front ih =>
    rw [List.mem_cons, not_or] at hfront
    generalize hs : c :: front ++ s = whole at h
    cases h with
    | nil => cases hs
    | keep c' h =>
      obtain ⟨rfl, rfl⟩ := List.cons.inj hs
      obtain ⟨t', rfl, h'⟩ := ih hfront.2 h
      exact ⟨t', rfl, h'⟩
    | put h =>
      obtain ⟨rest, rfl, -⟩ := hp
      exact absurd (List.cons.inj hs).1.symm hfront.1

end Replaces

/-- Every occurrence is replaced. -/
theorem replaces_replace (hp : IsMarked mark pattern) (replacement s : List Char) :
    Replaces pattern replacement s (replace pattern replacement s) (occurrences pattern s) := by
  induction s using pattern_induction hp.ne_nil with
  | nil =>
    rw [replace_nil, occurrences_nil hp.ne_nil]
    exact .nil
  | skip s ih =>
    rw [replace_append_self hp.ne_nil, hp.occurrences_append_self]
    exact ih.put
  | keep c s hc ih =>
    rw [replace_cons hc, occurrences_cons_of_neg hc]
    exact ih.keep c

namespace Replaces

variable {m n : Nat}

/-- If as many are replaced as there are, it is all of them. -/
theorem eq_replace (hp : IsMarked mark pattern) (h : Replaces pattern replacement s t n) (hall : n = occurrences pattern s) :
    t = replace pattern replacement s := by
  induction h with
  | nil => exact (replace_nil pattern replacement).symm
  | @keep c s t n h ih =>
    have hle := h.le_occurrences hp
    by_cases hc : pattern <+: c :: s
    · rw [occurrences_cons_of_pos hc] at hall
      omega
    · rw [occurrences_cons_of_neg hc] at hall
      rw [replace_cons hc, ih hall]
  | put h ih =>
    rw [hp.occurrences_append_self] at hall
    rw [replace_append_self hp.ne_nil, ih (Nat.succ.inj hall)]

/-- What stands where a pattern was kept is not what would be put in for it, if that is as long and another text. -/
theorem keep_ne_put (hp : IsMarked mark pattern) (hne : pattern ≠ replacement) (hlen : pattern.length = replacement.length)
    {whole : List Char} (hkeep : Replaces pattern replacement s t m) (hs : c :: s = pattern ++ whole) (u : List Char) :
    c :: t ≠ replacement ++ u := by
  intro heq
  obtain ⟨rest, rfl, hrest⟩ := id hp
  obtain ⟨rfl, rfl⟩ := List.cons.inj hs
  obtain ⟨t', rfl, -⟩ := hkeep.exists_of_append hp hrest
  have hfront : c :: rest ++ t' = replacement ++ u := heq
  exact hne (List.append_inj hfront hlen).1

/-- The two texts tell how many occurrences have been replaced, unless the pattern was replaced by itself. -/
theorem count_unique (hp : IsMarked mark pattern) (hne : pattern ≠ replacement) (h : Replaces pattern replacement s t m)
    (h' : Replaces pattern replacement s t n) : m = n := by
  by_cases hlen : pattern.length = replacement.length
  · -- Texts of one length: the first place that is replaced in one way only tells the two apart.
    induction h generalizing n with
    | nil =>
      have hle := h'.le_occurrences hp
      rw [occurrences_nil hp.ne_nil] at hle
      exact (Nat.le_zero.1 hle).symm
    | @keep c s t m h ih =>
      generalize hs : c :: s = whole at h'
      generalize ht : c :: t = whole' at h'
      cases h' with
      | nil => cases hs
      | keep c' h' =>
        obtain ⟨rfl, rfl⟩ := List.cons.inj hs
        obtain rfl := (List.cons.inj ht).2
        exact ih h'
      | put h' => exact absurd ht (h.keep_ne_put hp hne hlen hs _)
    | @put s t m h ih =>
      generalize hs : pattern ++ s = whole at h'
      generalize ht : replacement ++ t = whole' at h'
      cases h' with
      | nil =>
        have hnil := (List.append_eq_nil_iff.1 hs).1
        exact absurd hnil hp.ne_nil
      | keep c h' => exact absurd ht.symm (h'.keep_ne_put hp hne hlen hs.symm _)
      | put h' =>
        obtain rfl := List.append_cancel_left hs
        obtain rfl := List.append_cancel_left ht
        rw [ih h']
  · -- Otherwise the lengths of the texts tell.
    have hm := h.length_add
    have hn := h'.length_add
    have hsame : (m : Int) * (replacement.length - pattern.length) = n * (replacement.length - pattern.length) := by
      zify at hm hn
      linear_combination hn - hm
    have hdiff : (replacement.length : Int) - pattern.length ≠ 0 := by omega
    exact_mod_cast mul_right_cancel₀ hdiff hsame

end Replaces

end LibraryGuard.Text
