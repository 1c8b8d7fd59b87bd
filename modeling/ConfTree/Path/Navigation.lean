import ConfTree.Evaluation.State
import ConfTree.Path.Segment

/-!
# Navigation

A path is followed from a node, segment by segment. A selector asks for the value of an attribute,
so navigation takes the evaluation of node values as an argument. Absence is no error, unless the
path requires a node.
-/

namespace ConfTree.Path

/-- Evaluates the value of a node. -/
abbrev ValueOf (m : Type → Type) := NodeId → m (Option String)

variable {m : Type → Type} [Monad m] (conf : Configuration) (valueOf : ValueOf m)

/-- The first attribute of exactly the given name, ASCII case aside. -/
def keyAttribute? (id : NodeId) (key : String) : Option NodeId :=
  (conf.attributesOf id).find? (conf.hasName · key)

/-- The first of the sections whose key attribute has the wanted value. A key without a value counts
as empty. -/
def firstMatching (key wanted : String) : List NodeId → m (Option NodeId)
  | [] => pure none
  | id :: ids =>
    match keyAttribute? conf id key with
    | none => firstMatching key wanted ids
    | some found => do
      let actual ← valueOf found
      if actual.getD "" = wanted then return some id else firstMatching key wanted ids

/-- The child sections that a name and no selector stand for. -/
def candidates (id : NodeId) (name : Option String) : List NodeId :=
  match name with
  | none => conf.childrenOf id
  | some name => (conf.childrenOf id).filter (conf.hasName · name)

/-- One step from a node. -/
def step (id : NodeId) : Segment → m (Option NodeId)
  | .current => pure (conf.liveId? id)
  | .parent => pure ((conf.live? id).bind (·.parent))
  | .attributeNamed name => pure (keyAttribute? conf id name)
  | .attributeAt index => pure (conf.attributesOf id)[index]?
  | .child name none => pure (candidates conf id name).head?
  | .child name (some (.index n)) => pure (candidates conf id name)[n]?
  | .child name (some (.matching key value)) =>
    firstMatching conf valueOf key value (candidates conf id name)

/-- Follows segments as long as there is a node. -/
def follow : Option NodeId → List Segment → m (Option NodeId)
  | none, _ => pure none
  | some id, [] => pure (some id)
  | some id, segment :: segments => do
    let next ← step conf valueOf id segment
    follow next segments

variable [MonadExceptOf ConfigError m]

/-- Follows an alternative. It is read as a whole first, so it is malformed wherever it leads. -/
def followAlternative (start : Option NodeId) (cs : List Char) : m (Option NodeId) :=
  match Alternative.read cs with
  | .error fault => throw (.malformedPath (String.ofList cs) fault)
  | .ok alternative =>
    follow conf valueOf (if alternative.fromRoot then some Configuration.root else start)
      alternative.segments

/-- The node of the first alternative that leads to one. -/
def firstExisting (start : Option NodeId) : List (List Char) → m (Option NodeId)
  | [] => pure none
  | cs :: rest => do
    match ← followAlternative conf valueOf start cs with
    | some id => return some id
    | none => firstExisting start rest

/-- Follows a path text from a node. -/
def navigate (start : Option NodeId) (path : String) : m (Option NodeId) := do
  let outline := Outline.read path.toList
  match ← firstExisting conf valueOf start outline.alternatives with
  | some id => return some id
  | none => if outline.required then throw (.navigationFailed path) else return none

end ConfTree.Path
