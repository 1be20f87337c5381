import Mathlib.Tactic.GCongr

/-!
# Answers that may fail

What a sequence of two steps answers is told by the steps: it ends well exactly if both do, and it fails as the first one that
fails. `IsKeptBy` compares two computations of the same answer: the second one may succeed where the first one fails, but where
the first one succeeds, both answer alike. A computation that is made of steps is kept if its steps are.
-/

namespace LibraryGuard

variable {ε ε' α β : Type} {x : Except ε α} {f : α → Except ε β}

/-- A step that depends on another one succeeds if both do. -/
theorem bind_eq_ok_iff {b : β} : (x >>= f) = .ok b ↔ ∃ a, x = .ok a ∧ f a = .ok b := by
  cases x with
  | error e => exact ⟨nofun, nofun⟩
  | ok a => exact ⟨fun h => ⟨a, rfl, h⟩, fun ⟨_, ha, h⟩ => Except.ok.inj ha ▸ h⟩

/-- A step that depends on another one fails if that one does, or if it fails itself. -/
theorem bind_eq_error_iff {e : ε} : (x >>= f) = .error e ↔ x = .error e ∨ ∃ a, x = .ok a ∧ f a = .error e := by
  cases x with
  | error e' =>
    refine ⟨fun h => Or.inl (congrArg _ (Except.error.inj h)), ?_⟩
    rintro (h | ⟨a, ha, -⟩)
    · exact congrArg _ (Except.error.inj h)
    · cases ha
  | ok a => exact ⟨fun h => Or.inr ⟨a, rfl, h⟩, fun h => h.elim nofun fun ⟨_, ha, h⟩ => Except.ok.inj ha ▸ h⟩

theorem mapError_eq_ok_iff {f : ε → ε'} {a : α} : x.mapError f = .ok a ↔ x = .ok a := by
  cases x with
  | error e => exact ⟨nofun, nofun⟩
  | ok a' => exact ⟨fun h => congrArg _ (Except.ok.inj h), fun h => congrArg _ (Except.ok.inj h)⟩

theorem toOption_eq_some_iff {a : α} : x.toOption = some a ↔ x = .ok a := by
  cases x with
  | error e => exact ⟨nofun, nofun⟩
  | ok a' => exact ⟨fun h => congrArg _ (Option.some.inj h), fun h => congrArg _ (Except.ok.inj h)⟩

/-! ## Computations that succeed more often -/

/-- Where the first computation succeeds, the second one succeeds with the same answer. -/
def IsKeptBy {m : Type → Type} [Pure m] {α : Type} (x y : m α) : Prop := ∀ a, x = pure a → y = pure a

namespace IsKeptBy

variable {m : Type → Type} [Pure m] {α β ε : Type}

@[refl] theorem refl (x : m α) : IsKeptBy x x := fun _ h => h

@[gcongr] theorem ite {p : Prop} [Decidable p] {x x' y y' : m α} (hx : IsKeptBy x x') (hy : IsKeptBy y y') :
    IsKeptBy (if p then x else y) (if p then x' else y') := by
  split
  · exact hx
  · exact hy

/-- A check that the first computation passes is one that the second one passes. -/
theorem guarded {p q : Prop} [Decidable p] [Decidable q] {x x' y y' : m α} (hfails : ∀ a, x ≠ pure a) (hpq : q → p)
    (hy : IsKeptBy y y') : IsKeptBy (if p then x else y) (if q then x' else y') := by
  by_cases hp : p
  · rw [if_pos hp]
    exact fun a ha => absurd ha (hfails a)
  · rw [if_neg hp, if_neg (mt hpq hp)]
    exact hy

@[gcongr] theorem option_map {x y : Option α} (h : IsKeptBy x y) (f : α → β) : IsKeptBy (x.map f) (y.map f) := by
  intro b hb
  obtain ⟨a, ha, rfl⟩ := Option.map_eq_some_iff.1 hb
  exact Option.map_eq_some_iff.2 ⟨a, h a ha, rfl⟩

@[gcongr] theorem option_bind {x y : Option α} {f g : α → Option β} (h : IsKeptBy x y) (hf : ∀ a, IsKeptBy (f a) (g a)) :
    IsKeptBy (x >>= f) (y >>= g) := by
  intro b hb
  obtain ⟨a, ha, hfa⟩ := Option.bind_eq_some_iff.1 hb
  exact Option.bind_eq_some_iff.2 ⟨a, h a ha, hf a b hfa⟩

@[gcongr] theorem except_bind {x y : Except ε α} {f g : α → Except ε β} (h : IsKeptBy x y)
    (hf : ∀ a, IsKeptBy (f a) (g a)) : IsKeptBy (x >>= f) (y >>= g) := by
  intro b hb
  obtain ⟨a, ha, hfa⟩ := bind_eq_ok_iff.1 hb
  exact bind_eq_ok_iff.2 ⟨a, h a ha, hf a b hfa⟩

end IsKeptBy

end LibraryGuard
