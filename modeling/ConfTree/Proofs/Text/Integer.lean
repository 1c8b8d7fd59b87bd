import ConfTree.Proofs.Text.Blank
import ConfTree.Text.Integer
import Mathlib.Tactic.Lemma

/-!
# Reading integers back

A natural number is printed as decimal digits, and a reader that takes them from the left arrives at
the number again, as long as its range holds it. With a minus sign in front the digits count down.
`SpellsInteger` says which texts of a sign and digits denote an integer. Such a text is read as the
integer exactly if this has 64 bits (`SpellsInteger.read_eq_ok_iff`), and the printed text of an
integer is one (`spellsInteger_integerText`).
-/

namespace ConfTree.Text

variable {r : IntegerRange} {n : Nat}

/-! ## Digits -/

/-- A natural number is shown by its decimal digits. -/
lemma toList_toString (n : Nat) : (toString n).toList = Nat.toDigits 10 n := by
  rw [Nat.toString_eq_repr, Nat.toList_repr]

/-- A digit is no blank. -/
lemma isBlank_of_isDigit {c : Char} (h : c.isDigit = true) : isBlank c = false := by
  simp only [Char.isDigit, Bool.and_eq_true, decide_eq_true_eq, ge_iff_le,
    UInt32.le_iff_toNat_le] at h
  change 48 ≤ c.toNat ∧ c.toNat ≤ 57 at h
  simp only [isBlank, Bool.or_eq_false_iff, Bool.and_eq_false_iff, decide_eq_false_iff_not,
    beq_eq_false_iff_ne]
  omega

/-- A digit has no case. -/
lemma toLower_of_isDigit {c : Char} (h : c.isDigit = true) : c.toLower = c := by
  simp only [Char.isDigit, Bool.and_eq_true, decide_eq_true_eq, ge_iff_le] at h
  have upper : ¬ (c.val ≥ 'A'.val ∧ c.val ≤ 'Z'.val) := by
    rintro ⟨least, -⟩
    exact absurd (UInt32.le_trans least h.2) (by decide)
  exact dif_neg upper

/-- A natural number is shown by digits only. -/
lemma isDigit_of_mem_toString {c : Char} (h : c ∈ (toString n).toList) : c.isDigit = true := by
  rw [toList_toString] at h
  exact Nat.isDigit_of_mem_toDigits (by decide) (by decide) h

/-- A natural number is shown by a digit at least. -/
lemma toList_toString_ne_nil (n : Nat) : (toString n).toList ≠ [] := by
  rw [toList_toString]
  exact Nat.toDigits_ne_nil

/-- There are no blanks around the digits of a number. -/
lemma tight_toString (n : Nat) : Tight (toString n).toList :=
  tight_of_solid fun _ hc => isBlank_of_isDigit (isDigit_of_mem_toString hc)

/-- The range of integers of 64 bits. -/
lemma holds_iff {i : Int} : IntegerRange.signed64.holds i = true ↔
    -9223372036854775808 ≤ i ∧ i ≤ 9223372036854775807 := by
  rw [IntegerRange.holds, Bool.and_eq_true, decide_eq_true_eq, decide_eq_true_eq]
  rfl

/-- A text of digits has no sign. -/
lemma read_digits {cs : List Char} (filled : cs ≠ []) (digits : ∀ c ∈ cs, c.isDigit = true) :
    r.read cs = r.readDigits false 0 cs := by
  cases cs with
  | nil => exact absurd rfl filled
  | cons c cs =>
    have digit := digits c List.mem_cons_self
    unfold IntegerRange.read
    split
    case h_1 h => cases h
    case h_6 => rfl
    all_goals
      rename_i h
      cases h
      cases digit

/-- Digits behind a number make it no smaller. -/
lemma le_ofDigitChars (n : Nat) (cs : List Char) : n ≤ Nat.ofDigitChars 10 cs n := by
  induction cs generalizing n with
  | nil => exact Nat.le_of_eq Nat.ofDigitChars_nil.symm
  | cons c cs ih =>
    rw [Nat.ofDigitChars_cons]
    exact Nat.le_trans (by omega) (ih _)

/-- Digits are read as their value if the range holds it, and are else too large. -/
lemma readDigits_eq (hl : r.least ≤ 0) (hg : (n : Int) ≤ r.greatest) {cs : List Char}
    (digits : ∀ c ∈ cs, c.isDigit = true) :
    r.readDigits false n cs =
      if Nat.ofDigitChars 10 cs n ≤ r.greatest then .ok (Nat.ofDigitChars 10 cs n)
      else .error .tooLarge := by
  induction cs generalizing n with
  | nil => rw [IntegerRange.readDigits, Nat.ofDigitChars_nil, if_pos hg]
  | cons c cs ih =>
    have next : (n * 10 + digitValue c : Int) = (10 * n + digitValue c : Nat) := by
      push_cast
      omega
    have least : ¬ ((10 * n + digitValue c : Nat) : Int) < r.least := by omega
    rw [IntegerRange.readDigits, if_pos (digits c List.mem_cons_self), if_neg Bool.false_ne_true,
      next, Nat.ofDigitChars_cons, ← digitValue]
    simp only [if_neg least]
    by_cases large : r.greatest < (10 * n + digitValue c : Nat)
    · -- The digits that are left only make the number larger.
      have grows := le_ofDigitChars (10 * n + digitValue c) cs
      rw [if_pos large, if_neg (by omega)]
    · rw [if_neg large]
      exact ih (by omega) fun d hd => digits d (List.mem_cons_of_mem c hd)

/-- Behind a minus sign digits are read as the negation of their value if the range holds it, and
the number is else too small. -/
lemma readDigits_minus (hl : r.least ≤ -(n : Int)) (hg : 0 ≤ r.greatest) {cs : List Char}
    (digits : ∀ c ∈ cs, c.isDigit = true) :
    r.readDigits true (-(n : Int)) cs =
      if r.least ≤ -(Nat.ofDigitChars 10 cs n : Int) then .ok (-(Nat.ofDigitChars 10 cs n : Int))
      else .error .tooSmall := by
  induction cs generalizing n with
  | nil => rw [IntegerRange.readDigits, Nat.ofDigitChars_nil, if_pos hl]
  | cons c cs ih =>
    have next : (-(n : Int) * 10 - digitValue c : Int) =
        -((10 * n + digitValue c : Nat) : Int) := by
      push_cast
      omega
    have greatest : ¬ r.greatest < -((10 * n + digitValue c : Nat) : Int) := by omega
    rw [IntegerRange.readDigits, if_pos (digits c List.mem_cons_self), if_pos rfl, next,
      Nat.ofDigitChars_cons, ← digitValue]
    simp only [if_neg greatest]
    by_cases small : -((10 * n + digitValue c : Nat) : Int) < r.least
    · have grows := le_ofDigitChars (10 * n + digitValue c) cs
      rw [if_pos small, if_neg (by omega)]
    · rw [if_neg small]
      exact ih (by omega) fun d hd => digits d (List.mem_cons_of_mem c hd)

/-- The digits of a printed number have the number for their value. -/
lemma ofDigitChars_toString (n : Nat) : Nat.ofDigitChars 10 (toString n).toList 0 = n := by
  rw [toList_toString, Nat.ofDigitChars_ten_toDigits]

/-- A printed number is read back by every range that holds it. -/
lemma read_toString (hl : r.least ≤ 0) (hg : (n : Int) ≤ r.greatest) :
    r.read (toString n).toList = .ok n := by
  have digits : ∀ c ∈ (toString n).toList, c.isDigit = true := fun c => isDigit_of_mem_toString
  rw [read_digits (toList_toString_ne_nil n) digits]
  have read := readDigits_eq (n := 0) hl (by omega) digits
  rw [ofDigitChars_toString, if_pos hg] at read
  exact read

/-! ## Signs -/

/-- The text is an optional minus sign and decimal digits, at least one, and it denotes the
integer. -/
inductive SpellsInteger : List Char → Int → Prop where
  | unsigned {digits} :
    digits ≠ [] →
    (∀ c ∈ digits, c.isDigit = true) →
    SpellsInteger digits (Nat.ofDigitChars 10 digits 0)
  | negative {digits} :
    digits ≠ [] →
    (∀ c ∈ digits, c.isDigit = true) →
    SpellsInteger ('-' :: digits) (-(Nat.ofDigitChars 10 digits 0 : Int))

variable {cs : List Char} {i : Int}

/-- A text that denotes an integer is read as the integer if this is in the range, and as no other.
-/
lemma SpellsInteger.read_eq_ok_iff (h : SpellsInteger cs i) {j : Int} :
    IntegerRange.signed64.read cs = .ok j ↔ j = i ∧ IntegerRange.signed64.holds i = true := by
  rw [holds_iff]
  cases h with
  | @unsigned cs filled digits =>
    have read := readDigits_eq (r := .signed64) (n := 0) (by decide) (by decide) digits
    change IntegerRange.signed64.readDigits false 0 cs =
      if (Nat.ofDigitChars 10 cs 0 : Int) ≤ 9223372036854775807 then _ else _ at read
    rw [read_digits filled digits, read]
    split
    · rw [Except.ok.injEq]
      omega
    · refine ⟨nofun, fun h => ?_⟩
      omega
  | @negative cs filled digits =>
    have signed : IntegerRange.signed64.read ('-' :: cs) =
        IntegerRange.signed64.readDigits true 0 cs := by
      obtain ⟨c, cs, rfl⟩ := List.exists_cons_of_ne_nil filled
      rfl
    have read := readDigits_minus (r := .signed64) (n := 0) (by decide) (by decide) digits
    change IntegerRange.signed64.readDigits true 0 cs =
      if -9223372036854775808 ≤ -(Nat.ofDigitChars 10 cs 0 : Int) then _ else _ at read
    rw [signed, read]
    split
    · rw [Except.ok.injEq]
      omega
    · refine ⟨nofun, fun h => ?_⟩
      omega

/-- What is read stays within the range. -/
lemma holds_of_readDigits {negative : Bool} {acc : Int} (inside : r.holds acc = true)
    (read : r.readDigits negative acc cs = .ok i) : r.holds i = true := by
  fun_induction IntegerRange.readDigits r negative acc cs with
  | case1 acc =>
    cases read
    exact inside
  | case2 => cases read
  | case3 => cases read
  | case4 acc c cs _ next large small ih =>
    refine ih ?_ read
    simp only [IntegerRange.holds, Bool.and_eq_true, decide_eq_true_eq]
    omega
  | case5 => cases read

/-- An integer that is read is in the range. -/
lemma holds_of_read (read : IntegerRange.signed64.read cs = .ok i) :
    IntegerRange.signed64.holds i = true := by
  have zero : IntegerRange.signed64.holds 0 = true := rfl
  unfold IntegerRange.read at read
  split at read
  · cases read
  · cases read
  · cases read
  · exact holds_of_readDigits zero read
  · split at read
    · exact holds_of_readDigits zero read
    · cases read
  · exact holds_of_readDigits zero read

/-- An integer below zero is a sign and the number without it. -/
lemma toList_integerText_negSucc (n : Nat) :
    (integerText (Int.negSucc n)).toList = '-' :: (toString (n + 1)).toList := by
  show ("-" ++ toString (n + 1)).toList = _
  rw [String.toList_append]
  rfl

/-- The text of an integer denotes it. -/
lemma spellsInteger_integerText (i : Int) : SpellsInteger (integerText i).toList i := by
  cases i with
  | ofNat n =>
    have spelled := SpellsInteger.unsigned (toList_toString_ne_nil n) fun _ =>
      isDigit_of_mem_toString
    rw [ofDigitChars_toString] at spelled
    exact spelled
  | negSucc n =>
    have spelled := SpellsInteger.negative (toList_toString_ne_nil (n + 1)) fun _ =>
      isDigit_of_mem_toString
    rw [ofDigitChars_toString] at spelled
    rw [toList_integerText_negSucc]
    exact spelled

/-- The text of an integer of 64 bits is read back. -/
lemma read_integerText (h : IntegerRange.signed64.holds i = true) :
    IntegerRange.signed64.read (integerText i).toList = .ok i :=
  (spellsInteger_integerText i).read_eq_ok_iff.2 ⟨rfl, h⟩

/-- A text that denotes an integer is made of digits and a sign. -/
lemma SpellsInteger.digit_or_sign (h : SpellsInteger cs i) {c : Char} (hc : c ∈ cs) :
    c.isDigit = true ∨ c = '-' := by
  cases h with
  | unsigned _ digits => exact .inl (digits c hc)
  | negative _ digits =>
    rcases List.mem_cons.1 hc with sign | hc
    · exact .inr sign
    · exact .inl (digits c hc)

/-- A text that denotes an integer has a digit. -/
lemma SpellsInteger.exists_digit (h : SpellsInteger cs i) : ∃ c ∈ cs, c.isDigit = true := by
  cases h with
  | unsigned filled digits =>
    obtain ⟨c, hc⟩ := List.exists_mem_of_ne_nil _ filled
    exact ⟨c, hc, digits c hc⟩
  | negative filled digits =>
    obtain ⟨c, hc⟩ := List.exists_mem_of_ne_nil _ filled
    exact ⟨c, List.mem_cons_of_mem _ hc, digits c hc⟩

/-- No blank stands around the text of an integer. -/
lemma tight_integerText (i : Int) : Tight (integerText i).toList := by
  refine tight_of_solid fun c hc => ?_
  rcases (spellsInteger_integerText i).digit_or_sign hc with digit | rfl
  · exact isBlank_of_isDigit digit
  · rfl

end ConfTree.Text
