/-!
# Variables of a process

The variables that a process sees, each with its name. A variable that is empty counts as unset. Names and values are texts here:
a variable that is no UTF-8 lies outside of the library.
-/

namespace LibraryGuard

/-- The variables of a process. -/
abbrev Environment := List (String × String)

namespace Environment

/-- The value of a variable that is set and not empty. -/
def get? (env : Environment) (name : String) : Option String := (env.lookup name).filter (· ≠ "")

/-- The variables without some of them. -/
def hide (env : Environment) (names : List String) : Environment := env.filter fun v => !names.contains v.1

end Environment

end LibraryGuard
