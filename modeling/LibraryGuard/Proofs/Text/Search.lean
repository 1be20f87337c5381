import LibraryGuard.Text.Search
import Mathlib.Data.List.Infix

/-!
# Where a pattern is found

`cut?` fails exactly on the texts in which the pattern does not occur (`cut?_eq_none_iff`), and it divides at the first place
where the pattern occurs. A character that the pattern lacks keeps the two sides of it apart: the pattern occurs in the whole
only if it occurs in one of the sides (`infix_append_cons_iff`). A pattern is *marked* if its first character is not in the rest
of it, so that no two occurrences overlap. A text is divided at such a pattern in one way (`IsMarked.cut?_eq_some_iff`).
-/

namespace LibraryGuard.Text

variable {pattern before after s : List Char} {c : Char}

/-- A pattern that a text begins with ends before any character that it lacks. -/
theorem prefix_append_cons_iff (hc : c ∉ pattern) : pattern <+: before ++ c :: after ↔ pattern <+: before := by
  constructor
  · rintro ⟨rest, hrest⟩
    obtain ⟨l, rfl, -⟩ | ⟨l, rfl, hl⟩ := List.append_eq_append_iff.mp hrest
    · exact List.prefix_append pattern l
    · cases l with
      | nil => simp
      | cons x l =>
        obtain ⟨rfl, -⟩ := List.cons.inj hl
        exact absurd (by simp) hc
  · intro h
    exact h.trans (List.prefix_append before _)

/-- A pattern occurs on one of the two sides of a character that it lacks, or not at all. -/
theorem infix_append_cons_iff (hc : c ∉ pattern) :
    pattern <:+: before ++ c :: after ↔ pattern <:+: before ∨ pattern <:+: after := by
  induction before with
  | nil =>
    rw [List.nil_append, List.infix_cons_iff, ← List.nil_append (c :: after), prefix_append_cons_iff hc, List.infix_nil,
      List.prefix_nil]
  | cons b before ih =>
    rw [List.cons_append, List.infix_cons_iff, ← List.cons_append, prefix_append_cons_iff hc, ih, List.infix_cons_iff,
      or_assoc]

/-- A pattern does not occur in characters that it lacks, nor where they meet the rest of a text. -/
theorem infix_append_iff_of_not_mem (hne : pattern ≠ []) (hbefore : ∀ c ∈ before, c ∉ pattern) (hafter : ∀ c ∈ after, c ∉ pattern) :
    pattern <:+: before ++ s ++ after ↔ pattern <:+: s := by
  have hright : pattern <:+: s ++ after ↔ pattern <:+: s := by
    cases after with
    | nil => rw [List.append_nil]
    | cons c r =>
      obtain ⟨hc, hr⟩ := List.forall_mem_cons.1 hafter
      rw [infix_append_cons_iff hc]
      refine or_iff_left fun hinside => ?_
      obtain ⟨p, ps, rfl⟩ := List.exists_cons_of_ne_nil hne
      exact hr p (List.IsInfix.subset hinside List.mem_cons_self) List.mem_cons_self
  rw [List.append_assoc]
  induction before with
  | nil => exact hright
  | cons c before ih =>
    obtain ⟨hc, hbefore⟩ := List.forall_mem_cons.1 hbefore
    rw [List.cons_append, ← List.nil_append (c :: (before ++ (s ++ after))), infix_append_cons_iff hc, List.infix_nil]
    exact (or_iff_right hne).trans (ih hbefore)

/-- A text does not begin with a pattern exactly if nothing follows the pattern in it. -/
theorem after?_eq_none_iff : after? pattern s = none ↔ ¬pattern <+: s := by
  rw [Option.eq_none_iff_forall_ne_some]
  simp only [ne_eq, after?_eq_some_iff]
  exact ⟨fun h ⟨t, ht⟩ => h t ht.symm, fun h t ht => h ⟨t, ht.symm⟩⟩

/-- What follows a pattern is shorter than the whole. -/
theorem length_lt_of_after? {rest : List Char} (hne : pattern ≠ []) (h : after? pattern s = some rest) :
    rest.length < s.length := by
  have hpos := List.length_pos_iff.2 hne
  rw [after?_eq_some_iff.1 h, List.length_append]
  omega

/-- A text cannot be divided exactly if the pattern does not occur in it. -/
theorem cut?_eq_none_iff : cut? pattern s = none ↔ ¬pattern <:+: s := by
  induction s with
  | nil => simp [cut?]
  | cons c r ih =>
    rw [List.infix_cons_iff, not_or, ← after?_eq_none_iff, ← ih, cut?]
    cases after? pattern (c :: r) with
    | none => simp
    | some rest => simp

/-- A pattern is contained in a text if it occurs in it. -/
theorem contains_iff : contains pattern s = true ↔ pattern <:+: s := by
  rw [contains, ← not_iff_not, ← cut?_eq_none_iff, Option.not_isSome_iff_eq_none]

/-- A text is divided at the pattern that follows a character which the pattern lacks, if it does not occur before. -/
theorem cut?_append_cons (hne : pattern ≠ []) (hc : c ∉ pattern) (hbefore : ¬pattern <:+: before) :
    cut? pattern (before ++ c :: (pattern ++ after)) = some (before ++ [c], after) := by
  induction before with
  | nil =>
    obtain ⟨p, ps, rfl⟩ := List.exists_cons_of_ne_nil hne
    have hpc : p ≠ c := fun h => hc (h ▸ List.mem_cons_self)
    simp [cut?, after?, hpc, after?_eq_some_iff.mpr rfl]
  | cons b before ih =>
    rw [List.infix_cons_iff, not_or] at hbefore
    have hnone : after? pattern (b :: before ++ c :: (pattern ++ after)) = none := by
      rw [after?_eq_none_iff, prefix_append_cons_iff hc]
      exact hbefore.1
    rw [List.cons_append] at hnone ⊢
    rw [cut?, hnone, ih hbefore.2]
    rfl

/-- The pattern does not occur in what stands before its first occurrence. -/
theorem not_infix_of_cut? (hne : pattern ≠ []) (h : cut? pattern s = some (before, after)) : ¬pattern <:+: before := by
  induction s generalizing before with
  | nil => simp [cut?, hne] at h
  | cons c r ih =>
    unfold cut? at h
    split at h
    next =>
      obtain ⟨rfl, -⟩ := Prod.mk.inj (Option.some.inj h)
      rwa [List.infix_nil]
    next hstart =>
      obtain ⟨⟨b, a⟩, hcut, heq⟩ := Option.map_eq_some_iff.1 h
      obtain ⟨rfl, rfl⟩ := Prod.mk.inj heq
      rw [List.infix_cons_iff, not_or]
      refine ⟨fun hstarts => after?_eq_none_iff.1 hstart (hstarts.trans ?_), ih hcut⟩
      rw [cut?_eq_some hcut, List.append_assoc, ← List.cons_append]
      exact List.prefix_append _ _

/-! ## Marked patterns -/

/-- A pattern is marked by its first character if that is not in the rest of it. -/
def IsMarked (mark : Char) (pattern : List Char) : Prop := ∃ rest, pattern = mark :: rest ∧ mark ∉ rest

variable {mark : Char}

theorem IsMarked.ne_nil (h : IsMarked mark pattern) : pattern ≠ [] := by
  obtain ⟨rest, rfl, -⟩ := h
  exact List.cons_ne_nil mark rest

/-- A marked pattern does not begin before itself and end in itself. -/
theorem IsMarked.prefix_cons_append_iff (h : IsMarked mark pattern) :
    pattern <+: c :: (before ++ (pattern ++ after)) ↔ pattern <+: c :: before := by
  obtain ⟨rest, rfl, hrest⟩ := h
  rw [List.cons_prefix_cons, List.cons_prefix_cons, List.cons_append, prefix_append_cons_iff hrest]

/-- A text is divided at a marked pattern that does not occur before. -/
theorem IsMarked.cut?_append (h : IsMarked mark pattern) (hbefore : ¬pattern <:+: before) :
    cut? pattern (before ++ (pattern ++ after)) = some (before, after) := by
  induction before with
  | nil =>
    have hafter : after? pattern (pattern ++ after) = some after := after?_eq_some_iff.2 rfl
    obtain ⟨rest, rfl, -⟩ := h
    rw [List.nil_append, List.cons_append, cut?, ← List.cons_append, hafter]
  | cons c before ih =>
    rw [List.infix_cons_iff, not_or] at hbefore
    have hstart : after? pattern (c :: (before ++ (pattern ++ after))) = none := by
      rw [after?_eq_none_iff, h.prefix_cons_append_iff]
      exact hbefore.1
    rw [List.cons_append, cut?, hstart, ih hbefore.2]
    rfl

/-- A text is divided at a marked pattern exactly at the place that has no occurrence before it. -/
theorem IsMarked.cut?_eq_some_iff (h : IsMarked mark pattern) :
    cut? pattern s = some (before, after) ↔ s = before ++ (pattern ++ after) ∧ ¬pattern <:+: before := by
  constructor
  · intro hcut
    exact ⟨(cut?_eq_some hcut).trans (List.append_assoc ..), not_infix_of_cut? h.ne_nil hcut⟩
  · rintro ⟨rfl, hbefore⟩
    exact h.cut?_append hbefore

/-- A text in which a marked pattern occurs has it for the first time somewhere. -/
theorem IsMarked.exists_first (h : IsMarked mark pattern) (hs : pattern <:+: s) :
    ∃ before after, s = before ++ (pattern ++ after) ∧ ¬pattern <:+: before := by
  cases hcut : cut? pattern s with
  | none => exact absurd hs (cut?_eq_none_iff.1 hcut)
  | some sides => exact ⟨sides.1, sides.2, h.cut?_eq_some_iff.1 hcut⟩

end LibraryGuard.Text
