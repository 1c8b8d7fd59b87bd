import ConfTree.Macro.Builtin
import ConfTree.Tree.Environment

/-!
# Configurations

A configuration is a tree of sections and attributes. Its nodes stand in an arena, and a node is
known by its index there, which is never given to another node: deleted nodes stay in the arena and
are marked. The root is node 0. A node knows its parent, and a section knows its attributes and its
child sections in order.
-/

namespace ConfTree

/-- The index of a node in the arena of its configuration. -/
abbrev NodeId := Nat

/-- What a node holds below its name and value: a section has two lists, an attribute has none. -/
inductive Content where
  | lists (children attributes : Array NodeId)
  | leaf
  deriving DecidableEq, Repr

/-- A node of the arena. -/
structure NodeData where
  name : String
  value : Option String
  parent : Option NodeId
  content : Content
  modified : Bool
  deleted : Bool
  deriving DecidableEq, Repr

/-- The child sections of a node. -/
def NodeData.children (d : NodeData) : Array NodeId :=
  match d.content with
  | .lists children _ => children
  | .leaf => #[]

/-- The attributes of a node. -/
def NodeData.attributes (d : NodeData) : Array NodeId :=
  match d.content with
  | .lists _ attributes => attributes
  | .leaf => #[]

/-- The node is a section. -/
def NodeData.isSection (d : NodeData) : Bool :=
  match d.content with
  | .lists .. => true
  | .leaf => false

/-- A tree of sections and attributes, with what its values are evaluated by. -/
structure Configuration where
  nodes : Array NodeData
  readOnly : Bool
  environment : Environment
  provider : Macro.Provider
  typeSearchPaths : List String

namespace Configuration

/-- The root section. -/
def root : NodeId := 0

/-- The name of the root of an empty configuration. -/
def defaultRootName : String := "configuration"

/-- The name without the blanks around it, if there is anything else. -/
def validName? (name : String) : Option String :=
  let trimmed := Text.trim name
  if trimmed.isEmpty then none else some trimmed

/-- An empty configuration with the given name of the root, or the default one if it is blank. -/
def withRoot (name : String) : Configuration where
  nodes := #[⟨(validName? name).getD defaultRootName, none, none, .lists #[] #[], false, false⟩]
  readOnly := false
  environment := .process
  provider := Macro.builtin none
  typeSearchPaths := []

/-- An empty configuration. -/
def empty : Configuration := withRoot defaultRootName

variable (conf : Configuration)

/-- The node with the given index, unless it is deleted. -/
def live? (id : NodeId) : Option NodeData := conf.nodes[id]?.filter fun d => !d.deleted

/-- The index, if a node has it that is not deleted. -/
def liveId? (id : NodeId) : Option NodeId := (conf.live? id).map fun _ => id

/-- The verbatim value of a node. -/
def verbatim? (id : NodeId) : Option String := (conf.live? id).bind (·.value)

/-- The name of a node, empty if there is no such node. -/
def nameOf (id : NodeId) : String := ((conf.live? id).map (·.name)).getD ""

/-- The node is a section. -/
def isSection (id : NodeId) : Bool := ((conf.live? id).map (·.isSection)).getD false

/-- The parent of a node. -/
def parent? (id : NodeId) : Option NodeId :=
  ((conf.live? id).bind (·.parent)).bind conf.liveId?

/-- The child sections of a node in order. -/
def childrenOf (id : NodeId) : List NodeId :=
  ((conf.live? id).map (·.children.toList)).getD []

/-- The attributes of a node in order. -/
def attributesOf (id : NodeId) : List NodeId :=
  ((conf.live? id).map (·.attributes.toList)).getD []

/-- The node has the given name, which is taken as it stands. -/
def hasName (id : NodeId) (name : String) : Bool :=
  match conf.live? id with
  | some d => Text.sameName d.name name
  | none => false

/-- The node has the given name, with blanks around it or not. -/
def isNamed (id : NodeId) (name : String) : Bool := conf.hasName id (Text.trim name)

/-- The first child section of the given name. -/
def child? (id : NodeId) (name : String) : Option NodeId :=
  (conf.childrenOf id).find? (conf.isNamed · name)

/-- The first attribute of the given name. -/
def attribute? (id : NodeId) (name : String) : Option NodeId :=
  (conf.attributesOf id).find? (conf.isNamed · name)

/-- The child section at the given position. -/
def childAt? (id : NodeId) (index : Nat) : Option NodeId :=
  (conf.childrenOf id)[index]?.bind conf.liveId?

/-- The attribute at the given position. -/
def attributeAt? (id : NodeId) (index : Nat) : Option NodeId :=
  (conf.attributesOf id)[index]?.bind conf.liveId?

/-- Some node was modified since the last reset. -/
def isModified : Bool := conf.nodes.any fun d => !d.deleted && d.modified

/-- No node counts as modified. -/
def resetModified : Configuration :=
  { conf with nodes := conf.nodes.map fun d => { d with modified := false } }

/-- The configuration can no longer be edited. -/
def freeze : Configuration := { conf with readOnly := true }

/-- The same configuration, open to edits. -/
def unfrozen : Configuration := { conf with readOnly := false }

/-- A node and all below it: a section, then its attributes, then its child sections with all below
them. Nothing lies deeper than `depth`. -/
def preorderWithin (conf : Configuration) : Nat → NodeId → List NodeId
  | 0, _ => []
  | depth + 1, id =>
    id :: (conf.attributesOf id ++ conf.childrenOf id).flatMap (preorderWithin conf depth)

/-- A node and all below it. No path is longer than the arena. -/
def preorder (id : NodeId) : List NodeId := conf.preorderWithin conf.nodes.size id

end Configuration

end ConfTree
