/-!
# What a computation says besides its answer

A warning is a value: who warns, and the words. `Logged` is an answer with the warnings given on the way, and `Traced` is an
answer with the warnings and with the calls made to the outside, both in order. Two computations one after the other give
the first one's warnings and calls and then the second one's.
-/

namespace LibraryGuard

/-- The part of the guard that gives a warning. -/
inductive Source where
  | arming | version | selection | dependencies | reconciliation | interception
  deriving DecidableEq, Repr

/-- A warning: who gives it, and its words. -/
structure Warning where
  source : Source
  text : String
  deriving DecidableEq, Repr

/-- An answer and the warnings given on the way to it. -/
structure Logged (α : Type) where
  value : α
  warnings : List Warning := []
  deriving DecidableEq, Repr

namespace Logged

variable {α β : Type}

instance : Monad Logged where
  pure a := ⟨a, []⟩
  bind x f := ⟨(f x.value).value, x.warnings ++ (f x.value).warnings⟩

/-- Gives one warning. -/
def warn (source : Source) (text : String) : Logged Unit := ⟨(), [⟨source, text⟩]⟩

@[simp] theorem value_pure (a : α) : (pure a : Logged α).value = a := rfl

@[simp] theorem warnings_pure (a : α) : (pure a : Logged α).warnings = [] := rfl

@[simp] theorem value_bind (x : Logged α) (f : α → Logged β) : (x >>= f).value = (f x.value).value := rfl

@[simp] theorem warnings_bind (x : Logged α) (f : α → Logged β) :
    (x >>= f).warnings = x.warnings ++ (f x.value).warnings := rfl

@[simp] theorem warnings_warn (s : Source) (t : String) : (warn s t).warnings = [⟨s, t⟩] := rfl

end Logged

/-- An answer, the calls made to the outside and the warnings given on the way to it. -/
@[ext] structure Traced (ι α : Type) where
  value : α
  calls : List ι := []
  warnings : List Warning := []
  deriving DecidableEq, Repr

namespace Traced

variable {ι κ α β : Type}

instance : Monad (Traced ι) where
  pure a := ⟨a, [], []⟩
  bind x f := ⟨(f x.value).value, x.calls ++ (f x.value).calls, x.warnings ++ (f x.value).warnings⟩

instance : MonadLift Logged (Traced ι) := ⟨fun x => ⟨x.value, [], x.warnings⟩⟩

/-- Records one call. -/
def call (c : ι) : Traced ι Unit := ⟨(), [c], []⟩

/-- Gives one warning. -/
def warn (source : Source) (text : String) : Traced ι Unit := ⟨(), [], [⟨source, text⟩]⟩

/-- The same computation, with its calls named differently. -/
def mapCalls (f : ι → κ) (x : Traced ι α) : Traced κ α := ⟨x.value, x.calls.map f, x.warnings⟩

/-- The answer with the warnings alone. -/
def logged (x : Traced ι α) : Logged α := ⟨x.value, x.warnings⟩

@[simp] theorem value_pure (a : α) : (pure a : Traced ι α).value = a := rfl

@[simp] theorem calls_pure (a : α) : (pure a : Traced ι α).calls = [] := rfl

@[simp] theorem warnings_pure (a : α) : (pure a : Traced ι α).warnings = [] := rfl

@[simp] theorem value_bind (x : Traced ι α) (f : α → Traced ι β) : (x >>= f).value = (f x.value).value := rfl

@[simp] theorem calls_bind (x : Traced ι α) (f : α → Traced ι β) :
    (x >>= f).calls = x.calls ++ (f x.value).calls := rfl

@[simp] theorem warnings_bind (x : Traced ι α) (f : α → Traced ι β) :
    (x >>= f).warnings = x.warnings ++ (f x.value).warnings := rfl

@[simp] theorem value_map (f : α → β) (x : Traced ι α) : (f <$> x).value = f x.value := rfl

@[simp] theorem calls_map (f : α → β) (x : Traced ι α) : (f <$> x).calls = x.calls := List.append_nil _

@[simp] theorem warnings_map (f : α → β) (x : Traced ι α) : (f <$> x).warnings = x.warnings := List.append_nil _

@[simp] theorem value_lift (x : Logged α) : (liftM x : Traced ι α).value = x.value := rfl

@[simp] theorem calls_lift (x : Logged α) : (liftM x : Traced ι α).calls = [] := rfl

@[simp] theorem warnings_lift (x : Logged α) : (liftM x : Traced ι α).warnings = x.warnings := rfl

@[simp] theorem calls_call (c : ι) : (call c).calls = [c] := rfl

@[simp] theorem warnings_call (c : ι) : (call c).warnings = [] := rfl

@[simp] theorem calls_warn (s : Source) (t : String) : (warn s t : Traced ι Unit).calls = [] := rfl

@[simp] theorem warnings_warn (s : Source) (t : String) : (warn s t : Traced ι Unit).warnings = [⟨s, t⟩] := rfl

end Traced

end LibraryGuard
