import ConfTree.Instant

/-!
# Environments

References to variables are answered by the environment of a configuration. It may look at the
process that the configuration is read by, or have variables of its own.
-/

namespace ConfTree

/-- Variables with their values, in order. A name that is listed again has its last value. -/
abbrev Variables := List (String × String)

/-- The value of a variable. -/
def Variables.get? (vars : Variables) (name : String) : Option String :=
  (vars.reverse.find? fun v => v.1 == name).map (·.2)

/-- Sets a variable, in its place if it is there already. -/
def Variables.set (vars : Variables) (name value : String) : Variables :=
  if vars.any fun v => v.1 == name then vars.map fun v => if v.1 == name then (name, value) else v
  else vars ++ [(name, value)]

/-- Sets variables one after the other. -/
def Variables.setAll (vars more : Variables) : Variables :=
  more.foldl (fun vars v => vars.set v.1 v.2) vars

/-- The process that a configuration is read by: its variables, and what its clock shows. -/
structure Host where
  vars : Variables
  instant : Instant
  deriving DecidableEq, Repr

/-- A process without variables, whose clock shows the start of 1970. -/
def Host.bare : Host := ⟨[], .epoch⟩

/-- Where a configuration looks for variables: the value of a name, if it has one. -/
abbrev Environment := Host → String → Option String

/-- The variables of the process. -/
def Environment.process : Environment := fun process name => process.vars.get? name

/-- A fixed set of variables. -/
def Environment.fixed (vars : Variables) : Environment := fun _ name => vars.get? name

end ConfTree
