import ConfTree.Tree.Edit

/-!
# Subtrees

A subtree is a section with all below it, taken out of the arena. Operations that only read a tree
recur on its subtree. A subtree can be copied below a section of any configuration.
-/

namespace ConfTree

/-- An attribute of a subtree. -/
structure Attribute where
  id : NodeId
  name : String
  value : Option String
  deriving DecidableEq, Repr

/-- A section with all below it. -/
inductive Subtree where
  | mk (id : NodeId) (name : String) (value : Option String) (attributes : List Attribute)
    (children : List Subtree)

namespace Subtree

def id : Subtree → NodeId
  | mk id _ _ _ _ => id

def name : Subtree → String
  | mk _ name _ _ _ => name

def value : Subtree → Option String
  | mk _ _ value _ _ => value

def attributes : Subtree → List Attribute
  | mk _ _ _ attributes _ => attributes

def children : Subtree → List Subtree
  | mk _ _ _ _ children => children

end Subtree

namespace Configuration

variable (conf : Configuration)

/-- The attribute with the given index. -/
def attributeView (id : NodeId) : Attribute := ⟨id, conf.nameOf id, conf.verbatim? id⟩

/-- A section with all below it that is less than `depth` steps away. -/
def subtreeWithin (conf : Configuration) : Nat → NodeId → Subtree
  | 0, id => .mk id (conf.nameOf id) (conf.verbatim? id) [] []
  | depth + 1, id =>
    .mk id (conf.nameOf id) (conf.verbatim? id) ((conf.attributesOf id).map conf.attributeView)
      ((conf.childrenOf id).map (subtreeWithin conf depth))

/-- A section with all below it. -/
def subtree (id : NodeId) : Subtree := conf.subtreeWithin conf.nodes.size id

end Configuration

namespace Edit

/-- Appends attributes one after the other. -/
def copyAttributes (target : NodeId) : List Attribute → Edit Unit
  | [] => pure ()
  | a :: attributes => do
    let _ ← addAttribute target a.name a.value
    copyAttributes target attributes

mutual

/-- Appends a copy of a subtree to the child sections of `parent`. -/
def copySubtree (parent : NodeId) : Subtree → Edit NodeId
  | .mk _ name value attributes children => do
    let id ← addSection parent name value
    copyAttributes id attributes
    copySubtrees id children
    return id

/-- Appends copies of subtrees one after the other. -/
def copySubtrees (parent : NodeId) : List Subtree → Edit Unit
  | [] => pure ()
  | t :: ts => do
    let _ ← copySubtree parent t
    copySubtrees parent ts

end

/-- Appends copies of what a section holds. -/
def copyContent (target : NodeId) (source : Subtree) : Edit Unit := do
  copyAttributes target source.attributes
  copySubtrees target source.children

/-- Appends a copy of a node of another configuration, with all below it. -/
def importNode (parent : NodeId) (other : Configuration) (node : NodeId) : Edit NodeId :=
  match other.live? node with
  | none => throw (Configuration.stale node)
  | some d =>
    if d.isSection then copySubtree parent (other.subtree node)
    else addAttribute parent d.name d.value

/-- Makes the root a copy of the root of another configuration. -/
def importRoot (other : Configuration) : Edit Unit := do
  let source := other.subtree Configuration.root
  clear Configuration.root
  rename Configuration.root source.name
  setValue Configuration.root source.value
  copyContent Configuration.root source

end Edit

end ConfTree
