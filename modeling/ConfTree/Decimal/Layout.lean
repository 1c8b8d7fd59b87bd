import ConfTree.Decimal.Shortest

/-!
# Layout of numbers

A layout says how the shortest decimal of a double is written: where the exponent notation starts,
whether a whole number keeps a point, and how infinity and what is not a number are spelled.
-/

namespace ConfTree.Decimal

/-- The decisions of one way of writing doubles. -/
structure Layout where
  /-- Which neighbour is taken in the middle between two decimals. -/
  tie : Tie
  /-- A whole number written positionally ends in `.0`. -/
  wholeMark : Bool
  /-- A number is written positionally if it has more than the first and at most the second number
  of digits before the point; zeros right of the point count as negative. -/
  positional : Option (Int × Int)
  notANumber : String
  infinity : String

/-- Numbers as values: always positional, whole numbers without a point. -/
def Layout.plain : Layout := ⟨.up, false, none, "NaN", "inf"⟩

/-- Numbers in a table document: always positional, and never taken for an integer. -/
def Layout.table : Layout := ⟨.up, true, none, "nan", "inf"⟩

/-- Numbers in an object document: exponent notation below `1e-5` and from `1e16`. -/
def Layout.object : Layout := ⟨.even, true, some (-5, 16), "null", "null"⟩

/-- Digits with the point after the first `k` of them, and zeros where digits are missing. -/
def positionalChars (wholeMark : Bool) (digits : List Char) (k : Int) : List Char :=
  if k ≤ 0 then '0' :: '.' :: List.replicate (-k).toNat '0' ++ digits
  else if k < digits.length then digits.take k.toNat ++ '.' :: digits.drop k.toNat
  else
    digits ++ List.replicate (k.toNat - digits.length) '0' ++ if wholeMark then ['.', '0'] else []

/-- Digits with the point after the first and the exponent of that digit, which has a sign
always. -/
def exponentChars (digits : List Char) (k : Int) : List Char :=
  let fraction := digits.drop 1
  digits.take 1 ++ (if fraction.isEmpty then [] else '.' :: fraction) ++
    'e' :: (if k < 1 then '-' else '+') :: Nat.toDigits 10 (k - 1).natAbs

/-- A positive finite double as text. -/
def Layout.magnitudeChars (l : Layout) (m : Nat) (q : Int) : List Char :=
  let (d, e) := shortest l.tie m q
  let digits := Nat.toDigits 10 d
  let k := digits.length + e
  match l.positional with
  | none => positionalChars l.wholeMark digits k
  | some (low, high) =>
    if low < k && k ≤ high then positionalChars l.wholeMark digits k else exponentChars digits k

/-- A double as text. -/
def Layout.render (l : Layout) (x : Float) : String :=
  let word := magnitudeWord x
  if infinityWord < word then l.notANumber
  else
    let body :=
      if word = infinityWord then l.infinity.toList
      else if word = 0 then '0' :: (if l.wholeMark then ['.', '0'] else [])
      else
        let (m, q) := parts word
        l.magnitudeChars m q
    String.ofList (if isNegative x then '-' :: body else body)

end ConfTree.Decimal
