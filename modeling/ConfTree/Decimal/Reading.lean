import ConfTree.Decimal.Binary64
import ConfTree.Text.Integer

/-!
# Reading numbers

A number is written as an optional sign, digits with an optional point, and an optional exponent. It
reads as the nearest double. Infinity and what is not a number are read by their names.
-/

namespace ConfTree.Decimal

/-- The value of a list of decimal digits. -/
def digitsValue (cs : List Char) : Nat := cs.foldl (fun n c => n * 10 + Text.digitValue c) 0

/-- An exponent after its mark: an optional sign and at least one digit. -/
def readExponent : List Char → Option Int
  | [] => none
  | c :: cs =>
    let unsigned := if c = '+' || c = '-' then cs else c :: cs
    if unsigned.isEmpty || !unsigned.all Char.isDigit then none
    else some (if c = '-' then -(digitsValue unsigned : Int) else digitsValue unsigned)

/-- The digits and the exponent of an unsigned decimal. One digit at least stands beside the
point. -/
def readDecimal (cs : List Char) : Option (Nat × Int) :=
  let whole := cs.takeWhile Char.isDigit
  let afterWhole := cs.dropWhile Char.isDigit
  let fraction := match afterWhole with
    | '.' :: r => r.takeWhile Char.isDigit
    | _ => []
  let rest := match afterWhole with
    | '.' :: r => r.dropWhile Char.isDigit
    | r => r
  if whole.isEmpty && fraction.isEmpty then none
  else
    let digits := digitsValue (whole ++ fraction)
    match rest with
    | [] => some (digits, -(fraction.length : Int))
    | c :: exponent =>
      if c = 'e' || c = 'E' then
        (readExponent exponent).map fun e => (digits, e - fraction.length)
      else none

/-- The word of an unsigned number, by digits or by name. -/
def readMagnitude (cs : List Char) : Option Nat :=
  let folded := cs.map Char.toLower
  if folded = ['n', 'a', 'n'] then some (infinityWord + twoTo 51)
  else if folded = ['i', 'n', 'f'] || folded = ['i', 'n', 'f', 'i', 'n', 'i', 't', 'y'] then
    some infinityWord
  else (readDecimal cs).map fun (digits, exponent) => nearestDecimalWord digits exponent

/-- Reads a number. -/
def readFloat : List Char → Option Float
  | '-' :: cs => (readMagnitude cs).map (ofWord true)
  | '+' :: cs => (readMagnitude cs).map (ofWord false)
  | cs => (readMagnitude cs).map (ofWord false)

/-- Why a text is not a number. -/
inductive FloatFault where
  | empty
  | invalid
  deriving DecidableEq, Repr

/-- The wording of a fault. -/
def FloatFault.message : FloatFault → String
  | .empty => "cannot parse float from empty string"
  | .invalid => "invalid float literal"

/-- Reads a number or tells why there is none. -/
def readFloatOr (cs : List Char) : Except FloatFault Float :=
  if cs.isEmpty then .error .empty
  else match readFloat cs with
    | some x => .ok x
    | none => .error .invalid

end ConfTree.Decimal
