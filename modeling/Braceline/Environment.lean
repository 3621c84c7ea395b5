/-!
# Environments

The variables that a process is started with.
-/

namespace Braceline

/-- The variables of a process, each with its value. -/
structure Env where
  bindings : List (String × String)
  deriving DecidableEq, Repr

namespace Env

/-- No variable is set. -/
def empty : Env := ⟨[]⟩

/-- The value of a variable, if it is set. -/
def get? (env : Env) (name : String) : Option String := env.bindings.lookup name

/-- Sets a variable, in its place if it is set. -/
def set (env : Env) (name value : String) : Env :=
  if env.bindings.any (·.1 == name) then
    ⟨env.bindings.map fun v => if v.1 == name then (name, value) else v⟩
  else ⟨env.bindings ++ [(name, value)]⟩

/-- Unsets a variable. -/
def unset (env : Env) (name : String) : Env := ⟨env.bindings.filter fun v => v.1 != name⟩

end Env

end Braceline
