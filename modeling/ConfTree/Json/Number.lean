import ConfTree.Decimal.Layout
import ConfTree.Decimal.Reading
import ConfTree.Text.Integer

/-!
# Numbers of object documents

An integer that fits 64 bits is kept as it is. Any other number is a double, computed from at most
64 bits of digits and a power of ten by one multiplication or division of doubles, which may miss
the nearest double in the last place. A number that is too large is refused.
-/

namespace ConfTree.Json

/-- A number. -/
inductive Number where
  | int (i : Int)
  | float (x : Float)

/-- The text of a number. -/
def Number.toText : Number → String
  | .int i => Text.integerText i
  | .float x => Decimal.Layout.object.render x

/-- The digits that fit 64 bits, with the number of those that were left out. -/
structure Significand where
  value : Nat
  dropped : Nat
  deriving DecidableEq, Repr

/-- Appends a digit, unless one was left out before or the value would leave the range. -/
def Significand.push (s : Significand) (digit : Char) : Significand :=
  let next := s.value * 10 + Text.digitValue digit
  if s.dropped = 0 && next < Decimal.twoTo 64 then ⟨next, 0⟩ else ⟨s.value, s.dropped + 1⟩

/-- The power of ten as a double. -/
def powerOfTen (n : Nat) : Float := Decimal.ofWord false (Decimal.nearestDecimalWord 1 n)

/-- Scales a double by a negative power of ten, in steps that a double can hold. -/
def scaleDown (x : Float) (exponent : Nat) : Nat → Float
  | 0 => x
  | fuel + 1 =>
    if exponent ≤ 308 then x / powerOfTen exponent
    else if x == 0.0 then x
    else scaleDown (x / powerOfTen 308) (exponent - 308) fuel

/-- The double of a significand and a power of ten, unless it is too large. -/
def scale (significand : Nat) (exponent : Int) : Option Float :=
  let x := Decimal.ofInt significand
  if 0 ≤ exponent then
    if exponent ≤ 308 then
      let y := x * powerOfTen exponent.toNat
      if Decimal.magnitudeWord y = Decimal.infinityWord then none else some y
    else if significand = 0 then some x
    else none
  else some (scaleDown x exponent.natAbs 8)

/-- The power of ten that a list of exponent digits asks for. Beyond 31 bits only the sign
matters. -/
def exponentValue (negative : Bool) (digits : List Char) : Option Int :=
  let n := Decimal.digitsValue digits
  if n < Decimal.twoTo 31 then some (if negative then -(n : Int) else n) else none

/-- The double of digits before and after the point and an exponent. Digits after the point are
looked at only as long as the significand has room. -/
def floatOf (whole fraction : List Char) (exponent : Option (Bool × List Char)) : Option Float :=
  let integral := whole.foldl Significand.push ⟨0, 0⟩
  let total := fraction.foldl Significand.push ⟨integral.value, 0⟩
  let start : Int := (integral.dropped : Int) - ((fraction.length : Int) - total.dropped)
  match exponent with
  | none => scale total.value start
  | some (negative, digits) =>
    match exponentValue negative digits with
    | some e => scale total.value (start + e)
    | none => if total.value != 0 && !negative then none else some 0.0

/-- Takes a fraction after its point, if there is one. -/
def takeFraction : List Char → Option (Option (List Char) × List Char)
  | '.' :: cs =>
    let digits := cs.takeWhile Char.isDigit
    if digits.isEmpty then none else some (some digits, cs.dropWhile Char.isDigit)
  | cs => some (none, cs)

/-- Takes an exponent after its mark, if there is one. -/
def takeExponent : List Char → Option (Option (Bool × List Char) × List Char)
  | [] => some (none, [])
  | c :: cs =>
    if c = 'e' || c = 'E' then
      let negative := cs.head? = some '-'
      let unsigned := if negative || cs.head? = some '+' then cs.drop 1 else cs
      let digits := unsigned.takeWhile Char.isDigit
      if digits.isEmpty then none
      else some (some (negative, digits), unsigned.dropWhile Char.isDigit)
    else some (none, c :: cs)

/-- The number of its parts. -/
def numberOf (negative : Bool) (whole : List Char) (fraction : Option (List Char))
    (exponent : Option (Bool × List Char)) : Option Number :=
  let integral := whole.foldl Significand.push ⟨0, 0⟩
  let integer : Int := if negative then -(integral.value : Int) else integral.value
  if fraction.isNone && exponent.isNone && integral.dropped = 0
      && Text.IntegerRange.signed64.least ≤ integer && !(negative && integer == 0) then
    some (.int integer)
  else
    (floatOf whole (fraction.getD []) exponent).map fun x => .float (if negative then -x else x)

/-- Takes a number from the front of a text. -/
def takeNumber (cs : List Char) : Option (Number × List Char) := do
  let negative := cs.head? = some '-'
  let cs := if negative then cs.drop 1 else cs
  let whole := cs.takeWhile Char.isDigit
  if whole.isEmpty || (whole.head? = some '0' && 1 < whole.length) then none
  let (fraction, cs) ← takeFraction (cs.dropWhile Char.isDigit)
  let (exponent, cs) ← takeExponent cs
  let number ← numberOf negative whole fraction exponent
  return (number, cs)

end ConfTree.Json
