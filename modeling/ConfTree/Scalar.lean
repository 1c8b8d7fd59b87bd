import ConfTree.Decimal.Layout
import ConfTree.Decimal.Reading
import ConfTree.Text.Folding
import ConfTree.Text.Integer
import ConfTree.Text.Truth

/-!
# Scalars

The tree stores texts only. A text is taken for the most specific scalar that it spells: a truth
value, an integer of 64 bits, a number with a point, and else itself.
-/

namespace ConfTree

/-- A scalar. -/
inductive Scalar where
  | bool (b : Bool)
  | int (i : Int)
  | float (x : Float)
  | text (s : String)

/-- An optional minus sign and digits, at least one. -/
def looksLikeInteger (cs : List Char) : Bool :=
  let digits := match cs with
    | '-' :: r => r
    | r => r
  !digits.isEmpty && digits.all Char.isDigit

/-- The integer that a text looks like, if it is in the range. -/
def integerSpelled? (cs : List Char) : Option Int :=
  if looksLikeInteger cs then (Text.IntegerRange.signed64.read cs).toOption else none

/-- The number with a point that a text spells. -/
def floatSpelled? (cs : List Char) : Option Float :=
  if cs.contains '.' then Decimal.readFloat cs else none

/-- The most specific scalar that a text spells. -/
def Scalar.ofText (s : String) : Scalar :=
  if Text.sameName s "true" then .bool true
  else if Text.sameName s "false" then .bool false
  else
    match integerSpelled? s.toList with
    | some i => .int i
    | none =>
      match floatSpelled? s.toList with
      | some x => .float x
      | none => .text s

/-- The text of a scalar. A number with a point keeps it. -/
def Scalar.toText : Scalar → String
  | .bool b => Text.truthText b
  | .int i => Text.integerText i
  | .float x => Decimal.Layout.table.render x
  | .text s => s

end ConfTree
