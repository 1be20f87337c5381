import LibraryGuard.Version
import Mathlib.Order.Bounds.Basic
import Mathlib.Data.Prod.Lex
import Mathlib.Order.MinMax

/-!
# The order of versions

Versions are compared as triples are, number by number from the left (`lt_iff_triple_lt`), so they are a linear order, with
the comparisons, the larger and the smaller of two that the guard computes. `0.0.0` is the least version (`zero_le`), and the
largest of some versions is their least upper bound (`isLUB_foldl_max`).
-/

namespace LibraryGuard.Version

/-- The three numbers of a version, in the order in which they are compared. -/
def triple (v : Version) : ℕ ×ₗ ℕ ×ₗ ℕ := toLex (v.major.toNat, toLex (v.minor.toNat, v.patch.toNat))

/-- A version is known by its three numbers. -/
theorem triple_injective : Function.Injective triple := by
  intro a b h
  simp only [triple, EmbeddingLike.apply_eq_iff_eq, Prod.mk.injEq, UInt32.toNat_inj] at h
  obtain ⟨h1, h2, h3⟩ := h
  cases a
  cases b
  simp only at h1 h2 h3
  rw [h1, h2, h3]

/-- One version is before another exactly when its triple is. -/
theorem lt_iff_triple_lt (a b : Version) : a < b ↔ a.triple < b.triple := by
  simp only [triple, Prod.Lex.toLex_lt_toLex, UInt32.toNat_inj, ← UInt32.lt_iff_toNat_lt]
  exact Iff.rfl

/-- One version is at most another exactly when its triple is. -/
theorem le_iff_triple_le (a b : Version) : a ≤ b ↔ a.triple ≤ b.triple := by
  rw [← not_lt, ← lt_iff_triple_lt]
  exact Iff.rfl

/-- Of two versions of which neither is before the other there is only one. -/
theorem eq_of_not_lt {a b : Version} (hab : ¬ a < b) (hba : ¬ b < a) : a = b := by
  rw [lt_iff_triple_lt, not_lt] at hab hba
  exact triple_injective (hba.antisymm hab)

/-- No version is before itself, and of two at most one is before the other. -/
theorem not_lt_of_lt {a b : Version} (h : a < b) : ¬ b < a := by
  rw [lt_iff_triple_lt] at h ⊢
  exact h.asymm

instance : LinearOrder Version where
  le_refl a := (le_iff_triple_le a a).2 le_rfl
  le_trans a b c hab hbc := by
    rw [le_iff_triple_le] at *
    exact hab.trans hbc
  lt_iff_le_not_ge a b := by
    rw [lt_iff_triple_lt, le_iff_triple_le, le_iff_triple_le, lt_iff_le_not_ge]
  le_antisymm a b hab hba := eq_of_not_lt hba hab
  le_total a b := by
    rw [le_iff_triple_le, le_iff_triple_le]
    exact le_total _ _
  toDecidableLE := inferInstance
  toDecidableEq := inferInstance
  toDecidableLT := inferInstance
  min_def a b := by
    show (if b < a then b else a) = if ¬ b < a then a else b
    rw [ite_not]
  max_def a b := by
    show (if a < b then b else a) = if ¬ b < a then b else a
    by_cases h : a < b
    · rw [if_pos h, if_pos (not_lt_of_lt h)]
    · rw [if_neg h]
      by_cases h' : b < a
      · rw [if_neg (not_not_intro h')]
      · rw [if_pos h', eq_of_not_lt h h']
  compare_eq_compareOfLessAndEq a b := by
    show (if a < b then Ordering.lt else if b < a then .gt else .eq) = if a < b then .lt else if a = b then .eq else .gt
    by_cases h : a < b
    · rw [if_pos h, if_pos h]
    · rw [if_neg h, if_neg h]
      by_cases h' : b < a
      · rw [if_pos h', if_neg (by rintro rfl; exact h h')]
      · rw [if_neg h', if_pos (eq_of_not_lt h h')]

/-- There is no version below `0.0.0`. -/
theorem zero_le (v : Version) : zero ≤ v := by
  rw [le_iff_triple_le]
  simp [triple, zero, Prod.Lex.toLex_le_toLex]
  omega

/-- The largest of a version and some more is at most a bound exactly when each of them is. -/
theorem foldl_max_le_iff (vs : List Version) (best bound : Version) :
    vs.foldl max best ≤ bound ↔ best ≤ bound ∧ ∀ v ∈ vs, v ≤ bound := by
  induction vs generalizing best with
  | nil => simp
  | cons v vs ih => rw [List.foldl_cons, ih, max_le_iff, List.forall_mem_cons, and_assoc]

/-- The largest of a version and some more is their least upper bound. -/
theorem isLUB_foldl_max (vs : List Version) (best : Version) : IsLUB {v | v = best ∨ v ∈ vs} (vs.foldl max best) := by
  rw [isLUB_iff_le_iff]
  intro bound
  rw [foldl_max_le_iff]
  simp only [upperBounds, Set.mem_ofPred_eq, forall_eq_or_imp]

/-- The largest of a version and some more is one of them, and none of them is larger. -/
theorem isGreatest_foldl_max (vs : List Version) (best : Version) :
    IsGreatest {v | v = best ∨ v ∈ vs} (vs.foldl max best) := by
  refine ⟨?_, (isLUB_foldl_max vs best).1⟩
  induction vs generalizing best with
  | nil => exact Or.inl rfl
  | cons v vs ih =>
    rw [List.foldl_cons]
    rcases ih (max best v) with heq | hmem
    · rcases max_choice best v with hmax | hmax
      · exact Or.inl (heq.trans hmax)
      · exact Or.inr (by rw [heq, hmax]; exact List.mem_cons_self)
    · exact Or.inr (List.mem_cons_of_mem v hmem)

end LibraryGuard.Version
