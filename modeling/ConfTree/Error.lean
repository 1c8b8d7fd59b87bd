import ConfTree.Document.Fault
import ConfTree.Document.Format
import ConfTree.Expression.Token

/-!
# Errors

Everything that can go wrong with a configuration, by cause. The wording is in
`ConfigError.message`.
-/

namespace ConfTree

/-- Why a path is malformed. -/
inductive PathFault where
  | unclosedIndexer
  | indexerNotANumber
  | missingAttributeName
  | attributeWithSelector
  | strayBracket
  | unclosedSelector
  | invalidSelector
  deriving DecidableEq, Repr

/-- The wording of a fault. -/
def PathFault.message : PathFault → String
  | .unclosedIndexer => "unclosed '[' after '$'"
  | .indexerNotANumber => "attribute indexer must be a number"
  | .missingAttributeName => "missing attribute name after '$'"
  | .attributeWithSelector => "attribute names cannot carry a selector"
  | .strayBracket => "unexpected ']'"
  | .unclosedSelector => "unclosed '['"
  | .invalidSelector => "selector must be an index or attr=value"

/-- Why a call of a known macro failed. -/
inductive CallFault where
  | noBackend
  | invalidTimeFormat (format : String)
  | unsupportedType (type : String)
  | notOfType (text type : String)
  deriving DecidableEq, Repr

/-- The wording of a fault. -/
def CallFault.message : CallFault → String
  | .noBackend => "no decipher backend is installed"
  | .invalidTimeFormat format => "invalid time format '" ++ format ++ "'"
  | .unsupportedType type => "unsupported type '" ++ type ++ "'"
  | .notOfType text type => "'" ++ text ++ "' is not a valid " ++ type

/-- Why a script is malformed. -/
inductive ScriptFault where
  | tooDeep (limit : Nat)
  | assignmentWithoutPath
  | targetNotSection (target : String)
  deriving DecidableEq, Repr

/-- The wording of a fault. -/
def ScriptFault.message : ScriptFault → String
  | .tooDeep limit => "nesting deeper than " ++ toString limit
  | .assignmentWithoutPath => "'_set' requires a 'path' attribute"
  | .targetNotSection target => "call target '" ++ target ++ "' is not a section"

/-- Why a node does not take part in an operation. -/
inductive Absence where
  /-- The index of a node that is deleted or was never added. -/
  | stale (index : Nat)
  | noNode
  | root
  deriving DecidableEq, Repr

/-- The wording of an absence. -/
def Absence.message : Absence → String
  | .stale index => "#" ++ toString index
  | .noNode => "cannot operate on a non-existent node"
  | .root => "the root section cannot be deleted"

/-- An error. -/
inductive ConfigError where
  | fileNotFound (path : String)
  | unreadable (path : String)
  | unknownFormat (path : String)
  | unparsable (format : Format) (fault : Document.Fault)
  | unwritable (format : Format) (fault : Document.Fault)
  | unbindable
  | navigationFailed (path : String)
  | malformedPath (path : String) (fault : PathFault)
  | recursiveVariable (cycle : List String)
  | requiredValueMissing (reference context : String)
  | unclosedVariable (text : String)
  | evaluationLimit (place : String)
  | unknownMacro (name : String)
  | macroFailed (name : String) (fault : CallFault)
  /-- A section with this policy attribute is matched by a source section. -/
  | mergeConflict (path policyAttribute : String)
  | invalidPolicy (path value : String)
  | orphanElse (path : String)
  | unknownControl (name path : String)
  | assignTargetMissing (target path : String)
  | malformedScript (path : String) (fault : ScriptFault)
  | expression (source : String) (fault : Expression.Fault)
  | scriptTimeout (steps : Nat)
  /-- The value is no text of the wanted kind, for this reason. -/
  | invalidValue (path value reason : String)
  | readOnly
  | nonExistentNode (absence : Absence)
  | invalidName (name : String)
  | notASection (path : String)
  deriving DecidableEq, Repr

/-- The wording of an error. -/
def ConfigError.message : ConfigError → String
  | .fileNotFound path => "required config file not found: " ++ path
  | .unreadable path => "failed to read config file '" ++ path ++ "'"
  | .unknownFormat path => "cannot infer configuration format of '" ++ path ++ "'"
  | .unparsable format fault =>
    "failed to parse " ++ format.name ++ " configuration: " ++ fault.message
  | .unwritable format fault =>
    "failed to write " ++ format.name ++ " configuration: " ++ fault.message
  | .unbindable => "failed to deserialize config"
  | .navigationFailed path => "path '" ++ path ++ "' does not resolve to an existing node"
  | .malformedPath path fault => "malformed path '" ++ path ++ "': " ++ fault.message
  | .recursiveVariable cycle => "recursive variable evaluation: " ++ String.intercalate " -> " cycle
  | .requiredValueMissing reference context =>
    "required variable '" ++ reference ++ "' referenced from '" ++ context ++ "' is not resolved"
  | .unclosedVariable text => "unclosed variable (missing ')') in '" ++ text ++ "'"
  | .evaluationLimit place => "variable evaluation limit exceeded at '" ++ place ++ "'"
  | .unknownMacro name => "unknown macro '" ++ name ++ "'"
  | .macroFailed name fault => "macro '" ++ name ++ "' failed: " ++ fault.message
  | .mergeConflict path policyAttribute =>
    "merge conflict at '" ++ path ++ "': section declares " ++ policyAttribute
      ++ "=fail but the source overrides it"
  | .invalidPolicy path value => "invalid override policy '" ++ value ++ "' at '" ++ path ++ "'"
  | .orphanElse path => "'_else' at '" ++ path ++ "' does not directly follow an '_if'"
  | .unknownControl name path => "unknown script control '" ++ name ++ "' at '" ++ path ++ "'"
  | .assignTargetMissing target path =>
    "assignment target '" ++ target ++ "' from '" ++ path ++ "' does not exist"
  | .malformedScript path fault => "malformed script at '" ++ path ++ "': " ++ fault.message
  | .expression source fault => "script expression '" ++ source ++ "' failed: " ++ fault.message
  | .scriptTimeout steps =>
    "script execution budget exceeded after " ++ toString steps ++ " steps"
  | .invalidValue path value reason =>
    "invalid value at '" ++ path ++ "': '" ++ value ++ "': " ++ reason
  | .readOnly => "configuration is read-only"
  | .nonExistentNode absence => "node does not exist: " ++ absence.message
  | .invalidName name => "invalid node name '" ++ name ++ "'"
  | .notASection path => "'" ++ path ++ "' is not a section"

end ConfTree
