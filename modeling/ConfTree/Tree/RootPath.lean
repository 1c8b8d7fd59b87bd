import ConfTree.Tree.Basic

/-!
# Canonical paths

Every node has one canonical path from the root. Each step names the node if its name can stand in a
path and tells it from its siblings, and else counts its position.
-/

namespace ConfTree

/-- The name can stand in a path as it is. -/
def isPlainName (name : String) : Bool :=
  let cs := name.toList
  name != "." && name != ".." && cs.head? != some '$' && cs.head? != some '!'
    && !cs.any fun c => c = '/' || c = '[' || c = ']' || c = ';' || c = '|'

/-- A position in brackets. -/
def indexText (n : Nat) : String := "[" ++ toString n ++ "]"

namespace Configuration

variable (conf : Configuration)

/-- The step from a section to its child section `id`. A name that siblings share is counted among
them. -/
def sectionStep (siblings : List NodeId) (id : NodeId) (name : String) : String :=
  if isPlainName name then
    let same := siblings.filter (conf.hasName · name)
    if 1 < same.length then name ++ indexText (same.idxOf id) else name
  else indexText (siblings.idxOf id)

/-- The step from a section to its attribute `id`. A name that siblings share is not used. -/
def attributeStep (siblings : List NodeId) (id : NodeId) (name : String) : String :=
  if isPlainName name && (siblings.filter (conf.hasName · name)).length == 1 then "$" ++ name
  else "$" ++ indexText (siblings.idxOf id)

/-- The steps from the root to a node that is not deeper than `depth`. -/
def stepsWithin (conf : Configuration) : Nat → NodeId → Option (List String)
  | 0, _ => none
  | depth + 1, id =>
    match conf.live? id with
    | none => none
    | some d =>
      match d.parent with
      | none => some []
      | some parent =>
        match conf.live? parent with
        | none => none
        | some p =>
          let step :=
            if d.isSection then conf.sectionStep p.children.toList id d.name
            else conf.attributeStep p.attributes.toList id d.name
          (stepsWithin conf depth parent).map (· ++ [step])

/-- The canonical path of a node, empty if there is no such node. A parent comes before its children
in the arena. -/
def rootPath (id : NodeId) : String :=
  match conf.stepsWithin (id + 1) id with
  | none => ""
  | some steps => "/" ++ String.intercalate "/" steps

/-- The canonical path of an optional node, empty if there is none. -/
def pathOf (node : Option NodeId) : String :=
  (node.map conf.rootPath).getD ""

end Configuration

end ConfTree
