import ConfTree.Evaluation.Value
import ConfTree.Merge.Policy

/-!
# Matching sections

A merge pairs every child section of the source with a child section of the target: one of the same
name and, if the section of the source carries the match attribute, with the same value of it.
-/

namespace ConfTree

/-- The rules of a merge. -/
structure Rules where
  /-- A section of the source without the match attribute is appended and not paired. -/
  appends : Bool
  /-- The attribute that tells sections of one name apart. -/
  matchAttribute : String
  /-- The attribute that declares the policy of a section. -/
  policyAttribute : String
  deriving DecidableEq, Repr

/-- The rules by default. -/
def Rules.standard : Rules := ⟨false, "name", "_override"⟩

namespace Configuration

variable (process : Host) (rules : Rules)

/-- The policy that a section declares. -/
def policyOf (conf : Configuration) (id : NodeId) : Except ConfigError Policy := do
  match ← conf.valueOf? process (conf.attribute? id rules.policyAttribute) with
  | none => return .all
  | some value =>
    match Policy.ofText? value with
    | some policy => return policy
    | none => throw (.invalidPolicy (conf.rootPath id) value)

/-- The first section whose match attribute has the wanted value. -/
def firstWithKey (conf : Configuration) (wanted : String) :
    List NodeId → Except ConfigError (Option NodeId)
  | [] => .ok none
  | candidate :: rest => do
    let key ← conf.valueOf? process (conf.attribute? candidate rules.matchAttribute)
    if key = some wanted then return some candidate else firstWithKey conf wanted rest

/-- The child section of `target` that the section `id` of the source, called `name`, is paired
with. -/
def matchOf (conf source : Configuration) (target id : NodeId) (name : String) :
    Except ConfigError (Option NodeId) :=
  let candidates := (conf.childrenOf target).filter (conf.isNamed · name)
  match source.attribute? id rules.matchAttribute with
  | none => .ok (if rules.appends then none else candidates.head?)
  | some key => do
    let wanted ← source.value? process key
    conf.firstWithKey process rules (wanted.getD "") candidates

end Configuration

end ConfTree
