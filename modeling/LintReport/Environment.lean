/-!
# Environment variables

## Main definitions

* `Environment`: names with their values.
* `Environment.get?`, `Environment.nonEmpty?`: the value of a name.
-/

namespace LintReport

/-- The variables of a process, by name. -/
abbrev Environment := List (String × String)

namespace Environment

/-- The value of a variable. -/
def get? (env : Environment) (name : String) : Option String := env.lookup name

/-- A text that is there and not empty. -/
def nonEmpty (s : Option String) : Option String := s.filter fun t => !t.isEmpty

/-- The value of a variable that is set to more than the empty text. -/
def nonEmpty? (env : Environment) (name : String) : Option String := nonEmpty (env.get? name)

end Environment

end LintReport
