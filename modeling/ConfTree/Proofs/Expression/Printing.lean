import ConfTree.Proofs.Expression.Comparisons

/-!
# Numbers as texts

Scripts keep numbers as texts and evaluate the texts again. The text of every integer but the least
one is evaluated to the integer (`evaluate_toText`). Digits are a number only up to the greatest
integer, and more than that is a text, which a sum puts in front of or behind the other side
(`evaluate_digits`).
-/

namespace ConfTree.Expression

open ConfTree.Text

/-! ## The text of an integer -/

variable {i : Int}

/-- The text of an integer other than the least one is evaluated to the integer. -/
lemma evaluate_toText (h : IntegerRange.signed64.holds i = true)
    (other : i ≠ IntegerRange.signed64.least) : evaluate (Value.int i).toText = .ok (.int i) := by
  obtain ⟨t, ts, written, spells, value⟩ := exists_written_integerSource h
  rw [integerSource, if_neg other] at spells
  have loose : Written .either t ts := .tighter (Nat.zero_le _) written
  exact (loose.derives.evaluate_eq spells).trans value

/-- The text of the least integer is a sign in front of digits that are too large. -/
lemma evaluate_toText_least : evaluate (Value.int IntegerRange.signed64.least).toText =
    .error (.fails (.notNegatable "9223372036854775808")) := by
  have spelled : tokenize (Value.int IntegerRange.signed64.least).toText.toList =
      .ok [.minus, .word "9223372036854775808"] := by decide +kernel
  have derived : Term.ofTokens [.minus, .word "9223372036854775808"] =
      .ok (.negate (.literal (.text "9223372036854775808"))) := rfl
  exact (evaluate_eq spelled derived).trans rfl

/-! ## Digits -/

/-- A text of decimal digits. -/
structure IsDigits (w : String) : Prop where
  filled : w.toList ≠ []
  digits : ∀ c ∈ w.toList, c.isDigit = true

instance (w : String) : Decidable (IsDigits w) :=
  decidable_of_iff (w.toList.isEmpty = false ∧ w.toList.all Char.isDigit = true)
    ⟨fun h => ⟨List.isEmpty_eq_false_iff.1 h.1, List.all_eq_true.1 h.2⟩,
      fun h => ⟨List.isEmpty_eq_false_iff.2 h.filled, List.all_eq_true.2 h.digits⟩⟩

/-- The number that digits spell. -/
def digitsValue (w : String) : Nat := Nat.ofDigitChars 10 w.toList 0

variable {v w : String}

/-- Digits are a word. -/
lemma IsDigits.isWord (h : IsDigits w) : IsWord w := isWord_of_digits h.filled h.digits

/-- Digits within the range are an integer. -/
lemma IsDigits.ofWord_int (h : IsDigits w) (fits : digitsValue w ≤ IntegerRange.signed64.greatest) :
    Value.ofWord w = .int (digitsValue w) :=
  (ofWord_digits h.filled h.digits).trans (if_pos fits)

/-- Digits beyond the range are a text. -/
lemma IsDigits.ofWord_text (h : IsDigits w)
    (large : ¬ digitsValue w ≤ IntegerRange.signed64.greatest) : Value.ofWord w = .text w :=
  (ofWord_digits h.filled h.digits).trans (if_neg large)

/-- The text of the value that digits spell. A number loses its leading zeros. -/
def digitsText (w : String) : String :=
  if digitsValue w ≤ IntegerRange.signed64.greatest then integerText (digitsValue w) else w

/-- The value of digits is shown by these digits, without leading zeros if it is an integer. -/
lemma IsDigits.toText_ofWord (h : IsDigits w) : (Value.ofWord w).toText = digitsText w := by
  rw [digitsText]
  split
  case isTrue fits => rw [h.ofWord_int fits, Value.toText]
  case isFalse large => rw [h.ofWord_text large, Value.toText]

/-- A text and a value are joined. -/
lemma add_text_left (s : String) (r : Value) : (Value.text s).add r = .text (s ++ r.toText) := rfl

/-- A value and a text are joined. -/
lemma add_text_right (l : Value) (s : String) : l.add (.text s) = .text (l.toText ++ s) := by
  cases l <;> rfl

/-- A sum of digits is the sum of the values that they spell. -/
lemma evaluate_digits (hv : IsDigits v) (hw : IsDigits w) :
    evaluate (v ++ "+" ++ w) = .ok ((Value.ofWord v).add (.ofWord w)) :=
  evaluate_words .add hv.isWord hw.isWord

/-- Digits that are too large on one side make a sum of digits a text. -/
lemma evaluate_digits_large (hv : IsDigits v) (hw : IsDigits w)
    (large : ¬ (digitsValue v ≤ IntegerRange.signed64.greatest ∧
      digitsValue w ≤ IntegerRange.signed64.greatest)) :
    evaluate (v ++ "+" ++ w) = .ok (.text (digitsText v ++ digitsText w)) := by
  rw [evaluate_digits hv hw]
  by_cases fits : digitsValue v ≤ IntegerRange.signed64.greatest
  · have large' : ¬ digitsValue w ≤ IntegerRange.signed64.greatest := fun h => large ⟨fits, h⟩
    rw [hw.ofWord_text large', add_text_right, hv.toText_ofWord, digitsText, digitsText,
      if_neg large']
  · rw [hv.ofWord_text fits, add_text_left, hw.toText_ofWord]
    simp only [digitsText, if_neg fits]

/-- Digits up to the greatest integer are added as numbers. -/
lemma evaluate_digits_fit (hv : IsDigits v) (hw : IsDigits w)
    (left : digitsValue v ≤ IntegerRange.signed64.greatest)
    (right : digitsValue w ≤ IntegerRange.signed64.greatest) :
    evaluate (v ++ "+" ++ w) =
      .ok (if digitsValue v + digitsValue w ≤ IntegerRange.signed64.greatest
        then .int (digitsValue v + digitsValue w)
        else .float (Decimal.ofInt (digitsValue v) + Decimal.ofInt (digitsValue w))) := by
  have inside : IntegerRange.signed64.holds (digitsValue v + digitsValue w) = true ↔
      digitsValue v + digitsValue w ≤ IntegerRange.signed64.greatest := by
    rw [holds_iff]
    exact ⟨And.right, fun bound => ⟨by omega, bound⟩⟩
  rw [evaluate_digits hv hw, hv.ofWord_int left, hw.ofWord_int right, Value.add]
  simp only [inside]

/-- The text of an integer of the range is evaluated to the integer, but for the least one, whose
text cannot be evaluated. A sum of digits is a number exactly if both sides are integers of the
range: an integer, or a double if the sum is too large. With larger digits on a side, it is a
text. -/
theorem evaluate_numberText (h : IntegerRange.signed64.holds i = true) (hv : IsDigits v)
    (hw : IsDigits w) :
    evaluate (Value.int i).toText =
        (if i = IntegerRange.signed64.least then
          .error (.fails (.notNegatable "9223372036854775808"))
        else .ok (.int i)) ∧
      evaluate (v ++ "+" ++ w) = .ok (
        if digitsValue v ≤ IntegerRange.signed64.greatest ∧
            digitsValue w ≤ IntegerRange.signed64.greatest then
          if digitsValue v + digitsValue w ≤ IntegerRange.signed64.greatest
          then .int (digitsValue v + digitsValue w)
          else .float (Decimal.ofInt (digitsValue v) + Decimal.ofInt (digitsValue w))
        else .text (digitsText v ++ digitsText w)) := by
  constructor
  · split
    case isTrue least => rw [least, evaluate_toText_least]
    case isFalse other => exact evaluate_toText h other
  · split
    case isTrue fits => exact evaluate_digits_fit hv hw fits.1 fits.2
    case isFalse large => exact evaluate_digits_large hv hw large

/-- A negative integer, digits with zeros in front of them, and a sum that is out of the range. -/
theorem evaluate_numberText_zeros :
    evaluate "-5" = .ok (.int (-5)) ∧ evaluate "007+35" = .ok (.int 42) ∧
      evaluate "9223372036854775807+1" =
        .ok (.float (Decimal.ofInt 9223372036854775807 + Decimal.ofInt 1)) := by
  have inside : IntegerRange.signed64.holds (-5) = true := by decide
  have printed : (Value.int (-5)).toText = "-5" := by decide +kernel
  have zeros : IsDigits "007" := by decide +kernel
  have other : IsDigits "35" := by decide +kernel
  have greatest : IsDigits "9223372036854775807" := by decide +kernel
  have one : IsDigits "1" := by decide +kernel
  obtain ⟨text, sum⟩ := evaluate_numberText inside zeros other
  rw [printed] at text
  exact ⟨text.trans rfl, sum.trans rfl, (evaluate_numberText inside greatest one).2.trans rfl⟩

/-- The least integer is lost as a text, and digits behind the greatest one are put together. -/
theorem not_evaluate_numberText :
    IntegerRange.signed64.holds (-9223372036854775808) = true ∧
      evaluate (Value.int (-9223372036854775808)).toText ≠ .ok (.int (-9223372036854775808)) ∧
      IsDigits "9223372036854775808" ∧ IsDigits "1" ∧
      evaluate "9223372036854775808+1" = .ok (.text "92233720368547758081") := by
  have large : IsDigits "9223372036854775808" := by decide +kernel
  have one : IsDigits "1" := by decide +kernel
  refine ⟨by decide, ?_, large, one, ?_⟩
  · show evaluate (Value.int IntegerRange.signed64.least).toText ≠ _
    rw [evaluate_toText_least]
    nofun
  · exact (evaluate_digits large one).trans rfl

end ConfTree.Expression
