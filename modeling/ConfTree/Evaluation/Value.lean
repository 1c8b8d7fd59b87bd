import ConfTree.Evaluation.Reference
import ConfTree.Evaluation.Template
import ConfTree.Path.Navigation

/-!
# Values of nodes

The value of a node is its verbatim value with every reference substituted, relative to the section
that owns it. Substituted text is not looked at again. A node that refers back to itself is an
error, and so is an evaluation that nests too deep or substitutes too often.
-/

namespace ConfTree

section

variable {m : Type → Type} [Monad m] [MonadExceptOf ConfigError m] (process : Host)
  (conf : Configuration)

/-- The value that a reference takes from its target. -/
def Target.input (valueOf : Path.ValueOf m) (context : Option NodeId) :
    Target → m (Option String)
  | .nothing => pure none
  | .variableNamed name => pure (conf.environment process name)
  | .node path => do
    match ← Path.navigate conf valueOf context path with
    | none => return none
    | some id =>
      let value ← valueOf id
      return some (value.getD "")

/-- The text that a reference stands for. -/
def Reference.resolve (valueOf : Path.ValueOf m) (context : Option NodeId) (r : Reference) :
    m String := do
  let input ← r.target.input process conf valueOf context
  if r.required && input.isNone then
    throw (.requiredValueMissing r.text (conf.pathOf context))
  match r.call with
  | none => return input.getD ""
  | some text =>
    let call ← liftExcept (Macro.Call.parse text)
    liftExcept (conf.provider process.instant call input)

variable [MonadStateOf EvalState m]

/-- Counts a substitution in the given text. -/
def countSubstitution (text : String) : m Unit := do
  modify fun s => { s with substitutions := s.substitutions + 1 }
  let s ← get
  if maxSubstitutions < s.substitutions then throw (.evaluationLimit text)

/-- The text of pieces, one after the other. -/
def joinPieces (valueOf : Path.ValueOf m) (context : Option NodeId) (text : String) :
    List Piece → m (List Char)
  | [] => pure []
  | .char c :: rest => do
    let cs ← joinPieces valueOf context text rest
    return c :: cs
  | .escape :: rest => do
    let cs ← joinPieces valueOf context text rest
    return '$' :: '(' :: cs
  | .unclosed :: _ => throw (.unclosedVariable text)
  | .reference body :: rest => do
    countSubstitution text
    let resolved ← (Reference.read body).resolve process conf valueOf context
    let cs ← joinPieces valueOf context text rest
    return resolved.toList ++ cs

/-- The text with its references substituted. -/
def evaluateText (valueOf : Path.ValueOf m) (context : Option NodeId) (text : String) :
    m String := do
  let cs ← joinPieces process conf valueOf context text (pieces text.toList)
  return String.ofList cs

end

variable (m : Type → Type) [Monad m] [MonadExceptOf ConfigError m] [MonadStateOf EvalState m]
  [Nests m] (process : Host) (conf : Configuration)

/-- The section that references of a node are relative to. -/
def contextOf (id : NodeId) (d : NodeData) : Option NodeId :=
  if d.isSection then some id else d.parent

/-- The cycle that `id` closes on a stack that holds it, as paths from `id` to `id`. -/
def cyclePaths (stack : List NodeId) (id : NodeId) : List String :=
  let inner := stack.takeWhile (· != id)
  ((id :: inner.reverse) ++ [id]).map conf.rootPath

/-- The value of a node, with room for `room` more nodes on the stack. -/
def nodeValueWithin (room : Nat) (id : NodeId) : m (Option String) :=
  match conf.live? id with
  | none => pure none
  | some d =>
    match d.value with
    | none => pure none
    | some raw =>
      if hasReference raw.toList then do
        let s ← get
        if s.stack.contains id then throw (.recursiveVariable (cyclePaths conf s.stack id))
        match room with
        | 0 => throw (.evaluationLimit (conf.rootPath id))
        | room + 1 =>
          let text ← Nests.within id
            (evaluateText process conf (nodeValueWithin room) (contextOf id d) raw)
          return some text
      else pure (some raw)

/-- The value of a node, in the room that the stack leaves. -/
def nodeValue (id : NodeId) : m (Option String) := do
  let s ← get
  nodeValueWithin m process conf (maxDepth - s.stack.length) id

namespace Configuration

variable (process : Host) (conf : Configuration)

/-- The value of a node. -/
def value? (id : NodeId) : Except ConfigError (Option String) :=
  (nodeValue Eval process conf id).result

/-- The value of an optional node. -/
def valueOf? : Option NodeId → Except ConfigError (Option String)
  | none => .ok none
  | some id => conf.value? process id

/-- The node that a path leads to. -/
def navigate (start : Option NodeId) (path : String) : Except ConfigError (Option NodeId) :=
  (Path.navigate conf (nodeValue Eval process conf) start path).result

/-- A text with its references substituted as if it were the value of a node. -/
def evaluate (node : Option NodeId) (text : String) : Except ConfigError String :=
  let context := node.bind fun id => if conf.isSection id then some id else conf.parent? id
  (evaluateText process conf (nodeValue Eval process conf) context text).result

end Configuration

end ConfTree
