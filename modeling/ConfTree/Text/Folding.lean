/-!
# Folding of letter case

Names agree when they differ in the case of ASCII letters only. Other letters are told apart.
-/

namespace ConfTree.Text

/-- The characters with their ASCII capitals made small. -/
def foldChars (cs : List Char) : List Char := cs.map Char.toLower

/-- The text with its ASCII capitals made small. -/
def fold (s : String) : String := String.ofList (foldChars s.toList)

/-- The texts agree but for the case of ASCII letters. -/
def sameName (a b : String) : Bool := foldChars a.toList == foldChars b.toList

/-- Agreement of names is equality after folding. -/
theorem sameName_iff {a b : String} :
    sameName a b = true ↔ foldChars a.toList = foldChars b.toList :=
  beq_iff_eq

/-- A name is the same as itself. -/
@[simp]
theorem sameName_refl (a : String) : sameName a a = true := by simp [sameName]

/-- Names that are the same are so in both directions. -/
theorem sameName_symm {a b : String} (h : sameName a b = true) : sameName b a = true :=
  sameName_iff.2 (sameName_iff.1 h).symm

/-- Names that are the same as a third one are the same. -/
theorem sameName_trans {a b c : String} (h : sameName a b = true) (k : sameName b c = true) :
    sameName a c = true :=
  sameName_iff.2 ((sameName_iff.1 h).trans (sameName_iff.1 k))

/-- The order of the names does not count. -/
theorem sameName_comm (a b : String) : sameName a b = sameName b a := by
  rw [sameName, sameName, Bool.beq_comm]

/-- Names that agree agree with the same names. -/
theorem sameName_congr {a b : String} (h : sameName a b = true) (k : String) :
    sameName a k = sameName b k := by
  rw [sameName, sameName, sameName_iff.1 h]

/-- Of two names that are the same, either is the same as a third one or neither is. -/
theorem sameName_congr_right {a b : String} (h : sameName a b = true) (k : String) :
    sameName k a = sameName k b := by
  rw [sameName, sameName, sameName_iff.1 h]

end ConfTree.Text
