import ConfTree.Decimal.Reading
import ConfTree.Toml.Value

/-!
# Numbers of table documents

A number is an integer of 64 bits, in one of four bases, or a double. A number in base ten has no
zeros in front, and single underscores may stand between digits.
-/

namespace ConfTree.Toml

/-- Takes digits, at least one, and drops the single underscores between them. -/
def takeDigits (isDigit : Char → Bool) : List Char → Option (List Char × List Char)
  | [] => none
  | [c] => if isDigit c then some ([c], []) else none
  | c :: '_' :: rest =>
    if isDigit c then (takeDigits isDigit rest).map fun (digits, rest) => (c :: digits, rest)
    else none
  | c :: d :: rest =>
    if !isDigit c then none
    else if isDigit d then
      (takeDigits isDigit (d :: rest)).map fun (digits, rest) => (c :: digits, rest)
    else some ([c], d :: rest)

/-- Takes a sign, if there is one. -/
def takeSign : List Char → List Char × List Char
  | '-' :: cs => (['-'], cs)
  | '+' :: cs => (['+'], cs)
  | cs => ([], cs)

/-- Takes the digits of a number in base ten. -/
def takeWhole (cs : List Char) : Option (List Char × List Char) :=
  match cs with
  | '0' :: rest => some (['0'], rest)
  | cs => takeDigits Char.isDigit cs

/-- Takes a point with the digits after it, if there is one. -/
def takeFractionPart (cs : List Char) : Option (List Char × List Char) :=
  match cs with
  | '.' :: rest => (takeDigits Char.isDigit rest).map fun (digits, rest) => ('.' :: digits, rest)
  | cs => some ([], cs)

/-- Takes an exponent, if there is one. -/
def takeExponentPart (cs : List Char) : Option (List Char × List Char) :=
  match cs with
  | c :: rest =>
    if c = 'e' || c = 'E' then
      let (sign, rest) := takeSign rest
      (takeDigits Char.isDigit rest).map fun (digits, rest) => ('e' :: sign ++ digits, rest)
    else some ([], cs)
  | [] => some ([], [])

/-- The double that a text spells. One that is too large is refused, unless it is negative. -/
def doubleOf (cs : List Char) : Option Scalar := do
  let x ← Decimal.readFloat cs
  if Decimal.magnitudeWord x = Decimal.infinityWord && !Decimal.isNegative x then none
  return .float x

/-- The integer that digits spell in a base, if 64 bits hold it. -/
def integerOf (base : Nat) (digits : List Char) : Option Scalar := do
  let n ← Text.readDigits? Text.hexValue? base digits
  if n < Decimal.twoTo 63 then return .int n else none

/-- Takes infinity or what is not a number, with a sign or without. -/
def takeSpecial (cs : List Char) : Option (Scalar × List Char) :=
  let (sign, rest) := takeSign cs
  let special (name : List Char) : Option (Scalar × List Char) :=
    (Decimal.readFloat (sign ++ name)).map fun x => (.float x, rest.drop 3)
  match rest with
  | 'i' :: 'n' :: 'f' :: _ => special ['i', 'n', 'f']
  | 'n' :: 'a' :: 'n' :: _ => special ['n', 'a', 'n']
  | _ => none

/-- Takes a number in base ten. -/
def takeDecimal (cs : List Char) : Option (Scalar × List Char) := do
  let (sign, cs) := takeSign cs
  let (whole, cs) ← takeWhole cs
  let (fraction, cs) ← takeFractionPart cs
  let (exponent, cs) ← takeExponentPart cs
  if fraction.isEmpty && exponent.isEmpty then
    let i ← (Text.IntegerRange.signed64.read (sign ++ whole)).toOption
    return (.int i, cs)
  let x ← doubleOf (sign ++ whole ++ fraction ++ exponent)
  return (x, cs)

/-- Takes a number in the base that its mark tells. -/
def takeBased (base : Nat) (isDigit : Char → Bool) (cs : List Char) :
    Option (Scalar × List Char) := do
  let (digits, cs) ← takeDigits isDigit cs
  let i ← integerOf base digits
  return (i, cs)

/-- The character is a digit of the base. -/
def isBaseDigit (base : Nat) (c : Char) : Bool :=
  match Text.hexValue? c with
  | some d => d < base
  | none => false

/-- Takes a number. -/
def takeNumeral (cs : List Char) : Option (Scalar × List Char) :=
  match cs with
  | '0' :: 'x' :: rest => takeBased 16 (isBaseDigit 16) rest
  | '0' :: 'o' :: rest => takeBased 8 (isBaseDigit 8) rest
  | '0' :: 'b' :: rest => takeBased 2 (isBaseDigit 2) rest
  | cs => (takeSpecial cs).or (takeDecimal cs)

end ConfTree.Toml
