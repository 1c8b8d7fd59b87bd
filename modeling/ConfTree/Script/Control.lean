import ConfTree.Evaluation.Value
import ConfTree.Expression.Evaluation
import ConfTree.Text.Truth

/-!
# Scripts

A script is a configuration in which some sections are instructions. An instruction is known by its
name; any other section is copied to the result with its name, its value and its attributes
evaluated. Here stands what a script reads from its own tree.
-/

namespace ConfTree.Script

/-- An instruction. -/
inductive Control where
  /-- Assigns the value of an expression to a node. -/
  | assign
  /-- Runs its body as long as its condition holds. -/
  | repeatWhile
  /-- Runs its body if its condition holds. -/
  | whenTrue
  /-- Runs its body if the condition directly before it did not hold. -/
  | otherwise
  /-- Runs the body of another section. -/
  | call
  deriving DecidableEq, Repr

/-- The instruction with the given name, in any ASCII case. -/
def Control.ofName? (name : String) : Option Control :=
  let word := Text.fold name
  if word = "_set" then some .assign
  else if word = "_loop" then some .repeatWhile
  else if word = "_if" then some .whenTrue
  else if word = "_else" then some .otherwise
  else if word = "_call" then some .call
  else none

/-- The name is reserved for instructions. -/
def isReserved (name : String) : Bool := name.toList.head? == some '_'

/-- The attribute of sections that are called but not copied. -/
def scriptOnly : String := "script-only"

/-- What an ordinary section has in the result, besides its body. -/
structure Header where
  name : String
  value : Option String
  attributes : List (String × Option String)
  deriving DecidableEq, Repr

variable (process : Host) (conf : Configuration)

/-- The value of an attribute of a section. -/
def attributeValue (id : NodeId) (name : String) : Except ConfigError (Option String) :=
  conf.valueOf? process (conf.attribute? id name)

/-- The names and the values of attributes, but for the one that marks called sections. -/
def headerAttributes : List NodeId → Except ConfigError (List (String × Option String))
  | [] => .ok []
  | id :: ids =>
    if conf.isNamed id scriptOnly then headerAttributes ids
    else do
      let value ← conf.value? process id
      let rest ← headerAttributes ids
      return (conf.nameOf id, value) :: rest

/-- The evaluated header of a section. Its name is evaluated beside it, that of the root within
it. -/
def headerOf (id : NodeId) : Except ConfigError Header := do
  let context := (conf.parent? id).getD id
  let name ← conf.evaluate process (some context) (conf.nameOf id)
  let value ← conf.value? process id
  let attributes ← headerAttributes process conf (conf.attributesOf id)
  return ⟨name, value, attributes⟩

/-- The section is called but not copied. -/
def isScriptOnly (id : NodeId) : Except ConfigError Bool := do
  let flag ← attributeValue process conf id scriptOnly
  return (flag.bind Text.readTruth).getD false

/-- The value of an expression. -/
def calculate (text : String) : Except (Exit ConfigError) Expression.Value :=
  (Expression.evaluate text).mapError (Exit.map (.expression text))

/-- The condition of an instruction holds. -/
def holds (id : NodeId) : Except (Exit ConfigError) Bool := do
  let text ← Exit.lift (conf.value? process id)
  let value ← calculate (text.getD "")
  return value.isTruthy

/-- The node that an assignment writes to, and what it writes. -/
def assignmentOf (id : NodeId) : Except (Exit ConfigError) (NodeId × String) := do
  match ← Exit.lift (attributeValue process conf id "path") with
  | none => throw (.fails (.malformedScript (conf.rootPath id) .assignmentWithoutPath))
  | some path =>
    let text ← Exit.lift (attributeValue process conf id "to")
    let value ← calculate (text.getD "")
    match ← Exit.lift (conf.navigate process (some id) path) with
    | some target => return (target, value.toText)
    | none => throw (.fails (.assignTargetMissing path (conf.rootPath id)))

/-- The section that a call runs. -/
def calleeOf (id : NodeId) : Except ConfigError NodeId := do
  let path ← conf.value? process id
  let path := path.getD ""
  match ← conf.navigate process (some id) path with
  | some callee =>
    if conf.isSection callee then return callee
    else throw (.malformedScript (conf.rootPath id) (.targetNotSection path))
  | none => throw (.malformedScript (conf.rootPath id) (.targetNotSection path))

end ConfTree.Script
