import ConfTree.Merge.Match
import ConfTree.Tree.Subtree

/-!
# Merging

A merge lays a section of a source over a section of the configuration. The source wins where both
have something to say, and what only one of them has is kept. How far a merge goes is up to the
policy of the target. A merge that fails leaves what it did before.
-/

namespace ConfTree

namespace Edit

/-- Sets the value of the source, if there is one and it differs. -/
def mergeValue (target : NodeId) (value : Option String) : Edit Unit := do
  let conf ← get
  if value.isSome && conf.verbatim? target != value then setValue target value

/-- Lays attributes over those of `target`. Of the attributes with one name the `k`-th takes the
value of the `k`-th, and one too many is appended. The names of those before are `seen`. -/
def mergeAttributes (target : NodeId) (seen : List String) : List Attribute → Edit Unit
  | [] => pure ()
  | a :: rest => do
    let conf ← get
    let k := (seen.filter (Text.sameName · a.name)).length
    match ((conf.attributesOf target).filter (conf.isNamed · a.name))[k]? with
    | some id => if conf.verbatim? id != a.value then setValue id a.value
    | none =>
      let _ ← addAttribute target a.name a.value
    mergeAttributes target (seen ++ [a.name]) rest

/-- Makes the value and the content of `target` a copy of those of the source. -/
def replaceBy (target : NodeId) (source : Subtree) : Edit Unit := do
  clear target
  setValue target source.value
  copyContent target source

variable (process : Host) (rules : Rules) (source : Configuration)

mutual

/-- Lays a section of the source over `target`. -/
def mergeSection (target : NodeId) : Subtree → Edit Unit
  | .mk id name value attributes children => do
    match ← look (·.policyOf process rules target) with
    | .stop => pure ()
    | .fail => look fun conf => .error (.mergeConflict (conf.rootPath target) rules.policyAttribute)
    | .replace => replaceBy target (.mk id name value attributes children)
    | .attributes =>
      mergeValue target value
      mergeAttributes target [] attributes
    | .sections => mergeSections target children
    | .all =>
      mergeValue target value
      mergeAttributes target [] attributes
      mergeSections target children

/-- Lays child sections of the source over those of `target`. One that is not paired is appended. -/
def mergeSections (target : NodeId) : List Subtree → Edit Unit
  | [] => pure ()
  | t :: ts => do
    match ← look fun conf => conf.matchOf process rules source target t.id t.name with
    | some id => mergeSection id t
    | none =>
      let _ ← copySubtree target t
    mergeSections target ts

end

/-- Lays a node of the source over `target`. Both have to be sections. -/
def overrideSection (target : NodeId) (node : Option NodeId) : Edit Unit := do
  let id ← look fun _ => source.requireSectionOf node
  let _ ← look (·.requireSection target)
  mergeSection process rules source target (source.subtree id)

/-- Lays the source over the configuration. -/
def overrideBy : Edit Unit :=
  overrideSection process rules source Configuration.root (some Configuration.root)

end Edit

/-- The configuration that a merge of `b` over a copy of `a` gives. -/
def Configuration.merge (process : Host) (rules : Rules) (a b : Configuration) :
    Except ConfigError Configuration :=
  match (Edit.overrideBy process rules b).apply a.unfrozen with
  | (.ok _, conf) => .ok conf
  | (.error e, _) => .error e

end ConfTree
