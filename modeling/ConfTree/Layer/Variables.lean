import ConfTree.Text.Lowercase
import ConfTree.Text.Split
import ConfTree.Tree.Edit

/-!
# Variables as a configuration

Variables whose names start alike hold a configuration: the rest of a name, split at a separator, is
the path of an attribute in lower case, and the value of the variable is the value of the attribute.
-/

namespace ConfTree.Layer

/-- The sections and the attribute that a variable stands for, unless its name starts otherwise or
has a blank part. -/
def variablePath? (start separator name : String) : Option (List String × String) := do
  let rest ← Text.afterBeginning? (start ++ separator).toList name.toList
  let parts := (Text.splitAt separator.toList rest).map fun part =>
    Text.lowercase (String.ofList (Text.trimChars part))
  if parts.any (·.isEmpty) then none
  let leaf ← parts.getLast?
  return (parts.dropLast, leaf)

/-- The section with the given path below `parent`. Sections that are not there are added. -/
def sectionAt (parent : NodeId) : List String → Edit NodeId
  | [] => pure parent
  | name :: names => do
    let conf ← get
    match conf.child? parent name with
    | some id => sectionAt id names
    | none =>
      let id ← Edit.addSection parent name none
      sectionAt id names

/-- Sets an attribute, or adds one that is not there. -/
def setAttribute (parent : NodeId) (name value : String) : Edit Unit := do
  let conf ← get
  match conf.attribute? parent name with
  | some id => Edit.setValue id (some value)
  | none =>
    let _ ← Edit.addAttribute parent name (some value)

/-- Adds the attributes that variables stand for. -/
def addVariables (start separator : String) : Variables → Edit Unit
  | [] => pure ()
  | (name, value) :: rest => do
    match variablePath? start separator name with
    | some (sections, leaf) =>
      let parent ← sectionAt Configuration.root sections
      setAttribute parent leaf value
    | none => pure ()
    addVariables start separator rest

/-- The configuration that variables hold. No node of it counts as modified. -/
def ofVariables (start separator : String) (vars : Variables) : Except ConfigError Configuration :=
  match (addVariables start separator vars).apply .empty with
  | (.ok _, conf) => .ok conf.resetModified
  | (.error e, _) => .error e

end ConfTree.Layer
