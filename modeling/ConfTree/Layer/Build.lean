import ConfTree.Layer.Basic
import ConfTree.Merge.Overlay
import ConfTree.Script.Run

/-!
# Building configurations

The layers are merged in order, the later over the earlier. A script in what comes out is run, if
that is asked for, and its result takes the place of the layers.
-/

namespace ConfTree

/-- How a configuration is built. -/
structure Blueprint where
  layers : List Layer
  rules : Rules
  /-- The environment of the configuration, if not that of the first layer. -/
  environment : Option Environment
  /-- The macros of the configuration, if not those of the first layer. -/
  provider : Option Macro.Provider
  typeSearchPaths : List String
  /-- The limits within which the configuration is run as a script, if it is one. -/
  script : Option Script.Limits
  frozen : Bool

namespace Blueprint

/-- Lays layers over what is merged so far. -/
def stack (process : Host) (rules : Rules) (merged : Option Configuration) :
    List Layer → Except ConfigError (Option Configuration)
  | [] => .ok merged
  | layer :: layers => do
    match merged, ← layer.load process with
    | merged, none => stack process rules merged layers
    | none, some conf => stack process rules (some conf) layers
    | some base, some conf =>
      match (Edit.overrideBy process rules conf).apply base with
      | (.ok _, merged) => stack process rules (some merged) layers
      | (.error e, _) => throw e

/-- Gives a configuration what the blueprint says of evaluation. -/
def equip (b : Blueprint) (conf : Configuration) : Configuration :=
  { conf with
    environment := b.environment.getD conf.environment
    provider := b.provider.getD conf.provider
    typeSearchPaths := b.typeSearchPaths }

/-- The result of a configuration that is run as a script. -/
def runScript (process : Host) (limits : Script.Limits) (conf : Configuration) :
    Except (Exit ConfigError) Configuration :=
  let result : Configuration :=
    { Configuration.empty with
      environment := conf.environment
      provider := conf.provider
      typeSearchPaths := conf.typeSearchPaths }
  match Script.execute process limits conf result with
  | (.ok _, progress) => .ok progress.result
  | (.error e, _) => .error e

/-- Builds the configuration. No node of it counts as modified. -/
def build (process : Host) (b : Blueprint) : Except (Exit ConfigError) Configuration := do
  let merged ← Exit.lift (stack process b.rules none b.layers)
  let conf := b.equip (merged.getD .empty)
  let conf ← match b.script with
    | some limits => runScript process limits conf
    | none => pure conf
  let conf := conf.resetModified
  return if b.frozen then conf.freeze else conf

end Blueprint

end ConfTree
