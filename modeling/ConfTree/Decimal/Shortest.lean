import ConfTree.Decimal.Binary64

/-!
# Shortest decimals

Every double is read back from infinitely many decimals. The shortest one with the fewest digits is
chosen, and of those the nearest. The decimals that read back form an interval around the double,
which is compared with the grids of one, two, and up to seventeen digits in exact arithmetic.
-/

namespace ConfTree.Decimal

/-- Which of two decimals is taken when the double lies in the middle between them. -/
inductive Tie where
  | up
  | even
  deriving DecidableEq, Repr

/-- The positive number `num / den`. -/
structure Ratio where
  num : Nat
  den : Nat

/-- The ratio times a power of ten. -/
def Ratio.shift (r : Ratio) (exponent : Int) : Ratio :=
  if 0 ≤ exponent then ⟨r.num * tenTo exponent.toNat, r.den⟩
  else ⟨r.num, r.den * tenTo (-exponent).toNat⟩

/-- The number `m · 2 ^ q` as a ratio. -/
def Ratio.ofParts (m : Nat) (q : Int) : Ratio :=
  if 0 ≤ q then ⟨m * twoTo q.toNat, 1⟩ else ⟨m, twoTo (-q).toNat⟩

def Ratio.le (r s : Ratio) : Bool := r.num * s.den ≤ s.num * r.den

def Ratio.lt (r s : Ratio) : Bool := r.num * s.den < s.num * r.den

/-- The number of digits before the point: the least `k` with `r < 10 ^ k`. -/
def Ratio.decimalExponent (r : Ratio) : Int :=
  let guess := (floorLog2 r.num r.den * 1233).fdiv 4096
  let below (k : Int) : Bool := (r.shift (-k)).num < (r.shift (-k)).den
  if below guess then guess else if below (guess + 1) then guess + 1 else guess + 2

/-- The reals that read back as `m · 2 ^ q`, in quarters of `2 ^ q`. The ends belong to it exactly
when `m` is even. Below a power of two the neighbour is only half as far. -/
structure ReadingInterval where
  lower : Ratio
  value : Ratio
  upper : Ratio
  closed : Bool

/-- The interval around a positive double. -/
def ReadingInterval.around (m : Nat) (q : Int) : ReadingInterval where
  lower := .ofParts (if m = twoTo 52 && -1074 < q then 4 * m - 1 else 4 * m - 2) (q - 2)
  value := .ofParts (4 * m) (q - 2)
  upper := .ofParts (4 * m + 2) (q - 2)
  closed := m % 2 == 0

/-- The decimal `d · 10 ^ e` reads back. -/
def ReadingInterval.holds (i : ReadingInterval) (d : Nat) (e : Int) : Bool :=
  let r := Ratio.shift ⟨d, 1⟩ e
  if i.closed then i.lower.le r && r.le i.upper else i.lower.lt r && r.lt i.upper

/-- The decimal on the grid of multiples of `10 ^ e` that reads back and is nearest, if one does. -/
def ReadingInterval.onGrid (i : ReadingInterval) (tie : Tie) (e : Int) : Option Nat :=
  let scaled := i.value.shift (-e)
  let low := scaled.num / scaled.den
  let rest := 2 * (scaled.num % scaled.den)
  let above := scaled.den < rest || (rest = scaled.den && (tie = .up || low % 2 = 1))
  match i.holds low e && low != 0, i.holds (low + 1) e with
  | true, true => some (if above then low + 1 else low)
  | true, false => some low
  | false, true => some (low + 1)
  | false, false => none

/-- The first grid of at most `fuel` more digits with a decimal that reads back. -/
def ReadingInterval.search (i : ReadingInterval) (tie : Tie) (e : Int) : Nat → Nat × Int
  | 0 => (i.value.num, e)
  | fuel + 1 =>
    match i.onGrid tie e with
    | some d => (d, e)
    | none => i.search tie (e - 1) fuel

/-- Removes the zeros at the end of a decimal. -/
def dropZeros (d : Nat) (e : Int) : Nat → Nat × Int
  | 0 => (d, e)
  | fuel + 1 => if d % 10 = 0 && d != 0 then dropZeros (d / 10) (e + 1) fuel else (d, e)

/-- The shortest decimal `d · 10 ^ e` that reads back as the positive double `m · 2 ^ q`. -/
def shortest (tie : Tie) (m : Nat) (q : Int) : Nat × Int :=
  let i := ReadingInterval.around m q
  let (d, e) := i.search tie (i.value.decimalExponent - 1) 18
  dropZeros d e 20

end ConfTree.Decimal
