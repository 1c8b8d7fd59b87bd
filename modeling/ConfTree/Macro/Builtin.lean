import ConfTree.Macro.Call
import ConfTree.Macro.TimeFormat
import ConfTree.Scalar

/-!
# Built-in macros

`now` formats the time, `default` and `or` stand in for a blank input, `as` takes its input for a
type. Deciphering and all other names are left to a fallback provider, if there is one.
-/

namespace ConfTree.Macro

/-- The time, as the arguments ask for it. -/
def now (instant : Instant) (call : Call) : Except ConfigError String :=
  let utc := match call.get? "utc" with
    | some v => v.isEmpty || Text.sameName v "true"
    | none => false
  let moment := instant.momentAt (if utc then 0 else instant.offset)
  match call.get? "fmt" with
  | none => .ok (String.ofList (timeText moment))
  | some format =>
    match formatTime utc moment format.toList with
    | some cs => .ok (String.ofList cs)
    | none => .error (.macroFailed "now" (.invalidTimeFormat format))

/-- The input, or the argument `dflt` if the input is blank. -/
def default (call : Call) (input : Option String) : String :=
  match input.filter fun v => !Text.isBlankText v with
  | some v => v
  | none => (call.get? "dflt").getD ""

/-- The types that a value can be taken for. -/
inductive TargetType where
  | text
  | int
  | float
  | bool
  | auto
  deriving DecidableEq, Repr

/-- The type with the given name, in small letters. -/
def TargetType.ofName? (name : String) : Option TargetType :=
  if name = "string" || name = "str" then some .text
  else if name = "int" || name = "integer" || name = "long" then some .int
  else if name = "real" || name = "float" || name = "double" then some .float
  else if name = "bool" || name = "boolean" then some .bool
  else if name = "auto" then some .auto
  else none

/-- The text taken for a type and written back. -/
def TargetType.convert? (type : TargetType) (raw : String) : Option String :=
  match type with
  | .text => some raw
  | .int => (Text.IntegerRange.signed64.read raw.toList).toOption.map Text.integerText
  | .float => (Decimal.readFloat raw.toList).map Decimal.Layout.plain.render
  | .bool => (Text.readTruth raw).map Text.truthText
  | .auto => some (Scalar.ofText raw).toText

/-- The trimmed input taken for the type of the argument `type`, or the argument `dflt`. -/
def convert (call : Call) (input : Option String) : Except ConfigError String :=
  let name := Text.fold ((call.get? "type").getD "auto")
  let raw := Text.trim (input.getD "")
  match TargetType.ofName? name with
  | none => .error (.macroFailed "as" (.unsupportedType name))
  | some type =>
    match type.convert? raw, call.get? "dflt" with
    | some value, _ => .ok value
    | none, some dflt => .ok dflt
    | none, none => .error (.macroFailed "as" (.notOfType raw name))

/-- The built-in macros, which leave all else to the fallback. -/
def builtin (fallback : Option Provider) : Provider := fun instant call input =>
  let name := Text.fold call.name
  if name = "now" then now instant call
  else if name = "default" || name = "or" then .ok (default call input)
  else if name = "as" then convert call input
  else
    match fallback with
    | some provider => provider instant call input
    | none =>
      if name = "decipher" || name = "decrypt" then .error (.macroFailed call.name .noBackend)
      else .error (.unknownMacro call.name)

end ConfTree.Macro
