import ConfTree.Proofs.Text.Integer
import ConfTree.Text.Truth

/-!
# Words that are no truth values

The text of a truth value agrees with its own word only (`sameName_truthText`). A text agrees with
neither word if it has a character in it that no letter case makes a letter of one
(`sameName_of_wordless`), such as a digit.
-/

namespace ConfTree.Text

/-- The text of a truth value is the one word or the other. -/
lemma sameName_truthText (b : Bool) :
    sameName (truthText b) "true" = b ∧ sameName (truthText b) "false" = !b := by
  cases b <;> decide +kernel

/-- A character that stands in no word for a truth value. -/
def Wordless (c : Char) : Prop := c.toLower ∉ "true".toList ∧ c.toLower ∉ "false".toList

instance (c : Char) : Decidable (Wordless c) := inferInstanceAs (Decidable (_ ∧ _))

/-- A digit is in neither word. -/
lemma wordless_of_isDigit {c : Char} (h : c.isDigit = true) : Wordless c := by
  have letters {word : List Char} (noDigits : word.all (fun d => !d.isDigit) = true) :
      c ∉ word := by
    intro hc
    have noDigit := List.all_eq_true.1 noDigits c hc
    rw [h] at noDigit
    cases noDigit
  rw [Wordless, toLower_of_isDigit h]
  exact ⟨letters (by decide), letters (by decide)⟩

/-- A text with such a character agrees with no word for a truth value. -/
lemma sameName_of_wordless {s : String} {c : Char} (hc : c ∈ s.toList) (wordless : Wordless c) :
    sameName s "true" = false ∧ sameName s "false" = false := by
  have folded {word : String} (same : sameName s word = true) :
      c.toLower ∈ foldChars word.toList := by
    rw [← sameName_iff.1 same]
    exact List.mem_map_of_mem hc
  exact ⟨Bool.eq_false_iff.2 fun same => wordless.1 (folded same),
    Bool.eq_false_iff.2 fun same => wordless.2 (folded same)⟩

end ConfTree.Text
