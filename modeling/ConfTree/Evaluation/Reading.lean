import ConfTree.Decimal.Reading
import ConfTree.Evaluation.Value

/-!
# Values of a wanted kind

The value of a node is read as a text, a number, a truth value or a character, without the blanks
around it. A reader says why a text is not of its kind.
-/

namespace ConfTree

/-- A way to read a text as a value of some kind. -/
abbrev ValueReader (α : Type) := List Char → Except String α

namespace ValueReader

/-- Any text. -/
def text : ValueReader String := fun cs => .ok (String.ofList cs)

/-- An integer of a range. -/
def integer (range : Text.IntegerRange) : ValueReader Int := fun cs =>
  match range.read cs with
  | .ok i => .ok i
  | .error fault => .error fault.message

/-- A double. -/
def double : ValueReader Float := fun cs =>
  match Decimal.readFloatOr cs with
  | .ok x => .ok x
  | .error fault => .error fault.message

/-- One of the two words for truth values. -/
def truth : ValueReader Bool := fun cs =>
  if cs = "true".toList then .ok true
  else if cs = "false".toList then .ok false
  else .error "provided string was not `true` or `false`"

/-- A single character. -/
def character : ValueReader Char
  | [] => .error "cannot parse char from empty string"
  | [c] => .ok c
  | _ => .error "too many characters in string"

end ValueReader

/-- The value of a node, read by a reader. -/
def Configuration.valueAs {α : Type} (process : Host) (conf : Configuration)
    (reader : ValueReader α) (node : Option NodeId) : Except ConfigError (Option α) := do
  match ← conf.valueOf? process node with
  | none => return none
  | some raw =>
    match reader (Text.trimChars raw.toList) with
    | .ok value => return some value
    | .error reason => throw (.invalidValue (conf.pathOf node) raw reason)

end ConfTree
