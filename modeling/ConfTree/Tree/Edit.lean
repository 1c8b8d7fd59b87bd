import ConfTree.Tree.RootPath

/-!
# Edits

An edit runs on a configuration and leaves one behind, also when it fails. Each of the six primitive
edits checks everything it needs before it changes anything.
-/

namespace ConfTree

/-- An operation on a configuration that may fail. What it did before a failure stays done. -/
abbrev Edit (α : Type) := ExceptT ConfigError (StateM Configuration) α

/-- Runs an edit: its outcome and the configuration that it leaves behind. -/
def Edit.apply {α : Type} (edit : Edit α) (conf : Configuration) :
    Except ConfigError α × Configuration :=
  edit.run.run conf

/-- An edit that changes nothing if its check fails. -/
def Edit.checked {α β : Type} (check : Configuration → Except ConfigError α)
    (change : α → Configuration → β × Configuration) : Edit β :=
  ExceptT.mk fun conf =>
    match check conf with
    | .error e => (.error e, conf)
    | .ok a =>
      let (b, conf) := change a conf
      (.ok b, conf)

/-- An edit that looks at the configuration and may fail, but changes nothing. -/
def Edit.look {α : Type} (f : Configuration → Except ConfigError α) : Edit α :=
  Edit.checked f fun a conf => (a, conf)

/-- The two kinds of nodes. -/
inductive Kind where
  | sectionKind
  | attributeKind
  deriving DecidableEq, Repr

/-- The content of a new node. -/
def Kind.freshContent : Kind → Content
  | .sectionKind => .lists #[] #[]
  | .attributeKind => .leaf

/-- The content with a node appended to the list of its kind. -/
def Content.push (content : Content) (kind : Kind) (id : NodeId) : Content :=
  match content, kind with
  | .lists children attributes, .sectionKind => .lists (children.push id) attributes
  | .lists children attributes, .attributeKind => .lists children (attributes.push id)
  | .leaf, _ => .leaf

/-- The content without a node. -/
def Content.erase (content : Content) (id : NodeId) : Content :=
  match content with
  | .lists children attributes => .lists (children.filter (· != id)) (attributes.filter (· != id))
  | .leaf => .leaf

/-- The content without any node. -/
def Content.cleared : Content → Content
  | .lists .. => .lists #[] #[]
  | .leaf => .leaf

namespace Configuration

/-- The error for an index without a node. -/
def stale (id : NodeId) : ConfigError := .nonExistentNode (.stale id)

variable (conf : Configuration)

/-- The configuration is open to edits. -/
def checkWritable : Except ConfigError Unit :=
  if conf.readOnly then .error .readOnly else .ok ()

/-- The node with the given index. -/
def requireLive (id : NodeId) : Except ConfigError NodeData :=
  match conf.live? id with
  | some d => .ok d
  | none => .error (stale id)

/-- The section with the given index. -/
def requireSection (id : NodeId) : Except ConfigError NodeData :=
  match conf.live? id with
  | none => .error (stale id)
  | some d => if d.isSection then .ok d else .error (.notASection (conf.rootPath id))

/-- The index of a node that has to be a section. -/
def requireSectionOf (node : Option NodeId) : Except ConfigError NodeId :=
  match node with
  | some id => if conf.isSection id then .ok id else .error (.notASection (conf.rootPath id))
  | none => .error (.notASection (conf.pathOf none))

/-- The name as it is stored. -/
def requireName (name : String) : Except ConfigError String :=
  match validName? name with
  | some name => .ok name
  | none => .error (.invalidName name)

/-- Changes one node of the arena. -/
def modifyNode (id : NodeId) (f : NodeData → NodeData) : Configuration :=
  { conf with nodes := conf.nodes.modify id f }

/-- Marks nodes as deleted. -/
def markDeleted (ids : List NodeId) : Configuration :=
  { conf with
    nodes := ids.foldl
      (fun nodes id => nodes.modify id fun d => { d with deleted := true, parent := none })
      conf.nodes }

/-- Gives a node another value. -/
def replaceValue (id : NodeId) (value : Option String) : Configuration :=
  conf.modifyNode id fun d => { d with value := value, modified := true }

/-- Gives a node another name. -/
def replaceName (id : NodeId) (name : String) : Configuration :=
  conf.modifyNode id fun d => { d with name := name, modified := true }

/-- A new node at the end of the list of its kind of a section. -/
def addNode (kind : Kind) (parent : NodeId) (name : String) (value : Option String) :
    Configuration :=
  let id := conf.nodes.size
  let node : NodeData := ⟨name, value, some parent, kind.freshContent, true, false⟩
  { conf with nodes := conf.nodes.push node }.modifyNode parent fun p =>
    { p with content := p.content.push kind id, modified := true }

/-- Takes a node out of the lists of its parent, and marks it as deleted with all below it. -/
def removeNode (parent id : NodeId) : Configuration :=
  (conf.modifyNode parent fun p => { p with content := p.content.erase id, modified := true })
    |>.markDeleted (conf.preorder id)

/-- Empties the lists of a section, and marks all below it as deleted. -/
def emptyNode (id : NodeId) : Configuration :=
  (conf.markDeleted ((conf.preorder id).drop 1)).modifyNode id fun d =>
    { d with content := d.content.cleared, modified := true }

end Configuration

namespace Edit

/-- Appends a node to the list of its kind of a section. -/
def append (kind : Kind) (parent : NodeId) (name : String) (value : Option String) : Edit NodeId :=
  checked
    (fun conf => do
      conf.checkWritable
      let name ← Configuration.requireName name
      let _ ← conf.requireSection parent
      return name)
    fun name conf => (conf.nodes.size, conf.addNode kind parent name value)

/-- Appends a child section. -/
def addSection (parent : NodeId) (name : String) (value : Option String) : Edit NodeId :=
  append .sectionKind parent name value

/-- Appends an attribute. -/
def addAttribute (parent : NodeId) (name : String) (value : Option String) : Edit NodeId :=
  append .attributeKind parent name value

/-- Sets the verbatim value of a node. -/
def setValue (id : NodeId) (value : Option String) : Edit Unit :=
  checked
    (fun conf => do
      conf.checkWritable
      let _ ← conf.requireLive id)
    fun _ conf => ((), conf.replaceValue id value)

/-- Sets the name of a node. -/
def rename (id : NodeId) (name : String) : Edit Unit :=
  checked
    (fun conf => do
      conf.checkWritable
      let name ← Configuration.requireName name
      let _ ← conf.requireLive id
      return name)
    fun name conf => ((), conf.replaceName id name)

/-- Deletes a node with all below it. The root cannot be deleted. -/
def delete (id : NodeId) : Edit Unit :=
  checked
    (fun conf => do
      conf.checkWritable
      let node ← conf.requireLive id
      match node.parent with
      | none => .error (.nonExistentNode .root)
      | some parent =>
        let _ ← conf.requireLive parent
        return parent)
    fun parent conf => ((), conf.removeNode parent id)

/-- Deletes all attributes and child sections of a section. -/
def clear (id : NodeId) : Edit Unit :=
  checked
    (fun conf => do
      conf.checkWritable
      let _ ← conf.requireSection id)
    fun _ conf => ((), conf.emptyNode id)

end Edit

end ConfTree
