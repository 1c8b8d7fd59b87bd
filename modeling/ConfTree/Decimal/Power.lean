/-!
# Powers of two and ten

The powers that doubles and decimals are scaled by, as natural numbers.
-/

namespace ConfTree.Decimal

/-- The power `2 ^ n`. -/
def twoTo (n : Nat) : Nat := Nat.pow 2 n

/-- The power `10 ^ n`. -/
def tenTo (n : Nat) : Nat := Nat.pow 10 n

end ConfTree.Decimal
