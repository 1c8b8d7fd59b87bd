import ConfTree.Decimal.Power

/-!
# Doubles as exact numbers

A finite double is `m · 2 ^ q` for an integer `m` of at most 53 bits. This module takes doubles
apart, rounds ratios of natural numbers to the nearest double, and computes the exact remainder of
two doubles. All arithmetic is exact, on natural numbers.
-/

namespace ConfTree.Decimal

/-- The word of positive infinity; larger words without the sign bit are not numbers. -/
def infinityWord : Nat := 0x7FF0000000000000

/-- The word of a double without its sign bit. -/
def magnitudeWord (x : Float) : Nat := x.toBits.toNat % twoTo 63

/-- The sign bit of a double is set. -/
def isNegative (x : Float) : Bool := twoTo 63 ≤ x.toBits.toNat

/-- The integer `m` and the exponent `q` of the finite double `m · 2 ^ q` with the given word. -/
def parts (word : Nat) : Nat × Int :=
  let exponent : Nat := word / twoTo 52
  let fraction : Nat := word % twoTo 52
  if exponent = 0 then (fraction, -1074) else (fraction + twoTo 52, (exponent : Int) - 1075)

/-- The quotient rounded to the nearest integer, a half to the even one. -/
def roundDiv (num den : Nat) : Nat :=
  let quotient := num / den
  let twice := 2 * (num % den)
  if den < twice || (twice = den && quotient % 2 = 1) then quotient + 1 else quotient

/-- The exponent of the largest power of two that is at most `num / den`, both positive. -/
def floorLog2 (num den : Nat) : Int :=
  let guess : Int := (num.log2 : Int) - den.log2
  let reached :=
    if 0 ≤ guess then den * twoTo guess.toNat ≤ num else den ≤ num * twoTo (-guess).toNat
  if reached then guess else guess - 1

/-- The word of the double nearest to `num / den`, a tie going to the even one. -/
def nearestWord (num den : Nat) : Nat :=
  if num = 0 then 0
  else
    let q := max (floorLog2 num den - 52) (-1074)
    let m :=
      if 0 ≤ q then roundDiv num (den * twoTo q.toNat)
      else roundDiv (num * twoTo (-q).toNat) den
    min ((q + 1074).toNat * twoTo 52 + m) infinityWord

/-- The double with the given sign and word. -/
def ofWord (negative : Bool) (word : Nat) : Float :=
  Float.ofBits (UInt64.ofNat (if negative then twoTo 63 + word else word))

/-- The word of the double nearest to `digits · 10 ^ exponent`. Beyond the range of doubles the
power of ten is not computed. -/
def nearestDecimalWord (digits : Nat) (exponent : Int) : Nat :=
  let places : Int := (Nat.toDigits 10 digits).length + exponent
  if digits = 0 then 0
  else if 400 < places then infinityWord
  else if places < -400 then 0
  else if 0 ≤ exponent then nearestWord (digits * tenTo exponent.toNat) 1
  else nearestWord digits (tenTo (-exponent).toNat)

/-- The integer rounded to 53 significant bits, a tie going to the even neighbour: the value of the
nearest double. -/
def nearestInt (i : Int) : Int :=
  let n := i.natAbs
  let excess := n.log2 - 52
  let rounded := roundDiv n (twoTo excess) * twoTo excess
  if i < 0 then -rounded else rounded

/-- The double nearest to an integer. -/
def ofInt (i : Int) : Float := ofWord (i < 0) (nearestWord i.natAbs 1)

/-- The remainder of `x / y` with the sign of `x`, computed exactly. -/
def remainder (x y : Float) : Float :=
  let a := magnitudeWord x
  let b := magnitudeWord y
  if infinityWord ≤ a || infinityWord < b || b = 0 then 0.0 / 0.0
  else if b = infinityWord then x
  else
    let (m, q) := parts a
    let (n, r) := parts b
    let low := min q r
    let rest := (m * twoTo (q - low).toNat) % (n * twoTo (r - low).toNat)
    ofWord (isNegative x) <|
      if 0 ≤ low then nearestWord (rest * twoTo low.toNat) 1
      else nearestWord rest (twoTo (-low).toNat)

end ConfTree.Decimal
