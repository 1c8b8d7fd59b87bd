import ConfTree.Decimal.Layout
import ConfTree.Decimal.Reading
import ConfTree.Text.Integer
import ConfTree.Text.Truth

/-!
# Values of expressions

An expression yields an integer of 64 bits, a double, a truth value or a text. Every value has a
text, and words are classified by what they spell.
-/

namespace ConfTree.Expression

/-- A value. -/
inductive Value where
  | int (i : Int)
  | float (x : Float)
  | bool (b : Bool)
  | text (s : String)

/-- The text of a value. -/
def Value.toText : Value → String
  | .int i => Text.integerText i
  | .float x => Decimal.Layout.plain.render x
  | .bool b => Text.truthText b
  | .text s => s

/-- The value counts as true: a number other than zero, or a text that spells true. -/
def Value.isTruthy : Value → Bool
  | .bool b => b
  | .int i => i != 0
  | .float x => x != 0.0
  | .text s => (Text.readTruth s).getD false

/-- The value as a double, if it is a number. -/
def Value.toFloat? : Value → Option Float
  | .int i => some (Decimal.ofInt i)
  | .float x => some x
  | _ => none

/-- The value is the number zero. -/
def Value.isZero : Value → Bool
  | .int i => i == 0
  | .float x => x == 0.0
  | _ => false

/-- The value that a word spells. Digits that leave the range of integers spell a text. -/
def Value.ofWord (word : String) : Value :=
  let cs := word.toList
  if Text.sameName word "true" then .bool true
  else if Text.sameName word "false" then .bool false
  else
    match if cs.all Char.isDigit then Text.IntegerRange.signed64.read cs
      else .error .invalidDigit with
    | .ok i => .int i
    | .error _ =>
      match if cs.contains '.' && cs.all (fun c => c.isDigit || c == '.') then Decimal.readFloat cs
        else none with
      | some x => .float x
      | none => .text word

/-- The order of two texts, by code points. -/
def compareTexts (a b : String) : Ordering := if a < b then .lt else if a = b then .eq else .gt

/-- The order of two doubles. What is not a number is equal to everything. -/
def compareFloats (x y : Float) : Ordering := if x < y then .lt else if y < x then .gt else .eq

/-- The order of two values. Numbers compare by their nearest doubles, all else by its text. -/
def Value.compare : Value → Value → Ordering
  | .int a, .int b => Ord.compare (Decimal.nearestInt a) (Decimal.nearestInt b)
  | v, w =>
    match v.toFloat?, w.toFloat? with
    | some x, some y => compareFloats x y
    | _, _ => compareTexts v.toText w.toText

end ConfTree.Expression
