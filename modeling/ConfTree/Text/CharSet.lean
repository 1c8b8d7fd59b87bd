/-!
# Sets of characters

A set of characters is kept as closed ranges of code points, as the standards print them.
-/

namespace ConfTree.Text

/-- A set of characters, the union of closed ranges of code points. -/
structure CharSet where
  ofRanges ::
  ranges : List (Nat × Nat)

/-- The character lies in one of the ranges. -/
def CharSet.contains (s : CharSet) (c : Char) : Bool :=
  s.ranges.any fun r => r.1 ≤ c.toNat && c.toNat ≤ r.2

/-- A character is in a set exactly when a range holds it. -/
theorem CharSet.contains_iff {s : CharSet} {c : Char} :
    s.contains c = true ↔ ∃ r ∈ s.ranges, r.1 ≤ c.toNat ∧ c.toNat ≤ r.2 := by
  simp [contains]

end ConfTree.Text
