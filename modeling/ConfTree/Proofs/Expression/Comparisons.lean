import ConfTree.Proofs.Expression.Integers
import Mathlib.Algebra.Order.Group.Int

/-!
# Comparisons of integers

Every integer of the range has an expression (`integerSource`), and two of them with a comparison
between them are compared by the doubles nearest to them (`evaluate_answer`). Rounding keeps the
order, so no comparison is reversed. But neighbours of 54 bits and more may be one double, and then
they count as equal.
-/

namespace ConfTree.Expression

open ConfTree.Text ConfTree.Decimal

/-! ## Expressions of integers -/

/-- An expression for an integer. The least one has no literal of its own. -/
def integerSource (i : Int) : String :=
  if i = IntegerRange.signed64.least then "-9223372036854775807-1" else integerText i

variable {i : Int}

/-- The expression of an integer is read as a sum whose value it is. -/
lemma exists_written_integerSource (h : IntegerRange.signed64.holds i = true) :
    ∃ t ts, Written .sum t ts ∧ Spells ts (integerSource i).toList ∧ t.eval = .ok (.int i) := by
  rw [holds_iff] at h
  have literal {l : Level} {n : Nat} (bound : n ≤ IntegerRange.signed64.greatest) :
      Written l (.literal (.int n)) [.word (integerText n)] :=
    .tighter (by cases l <;> decide) (.integer bound)
  have negated {n : Nat} (bound : n ≤ IntegerRange.signed64.greatest) :
      Written .sum (.negate (.literal (.int n))) [.minus, .word (integerText n)] :=
    .tighter (by decide) (.negate (literal bound))
  rw [integerSource]
  split
  case isTrue least =>
    -- One less than the least integer that a sign and a literal reach.
    have greatest := negated (n := 9223372036854775807) (by decide)
    have one := literal (l := .product) (n := 1) (by decide)
    refine ⟨_, _, .chained .sum (rfl : Level.sum.operator? .minus = some (.binary .sub)) greatest
      one, ?_, ?_⟩
    · exact .token .minus (.token (spelled_integerText 9223372036854775807)
        (.token .minus (spelled_integerText 1).spells))
    · rw [least]
      rfl
  case isFalse other =>
    cases i with
    | ofNat n => exact ⟨_, _, literal h.2, (spelled_integerText n).spells, rfl⟩
    | negSucc n =>
      have bound : ((n + 1 : Nat) : Int) ≤ IntegerRange.signed64.greatest := by
        change ¬ Int.negSucc n = -9223372036854775808 at other
        change _ ≤ 9223372036854775807
        omega
      have inside : ((n + 1 : Nat) : Int) ≠ IntegerRange.signed64.least := nofun
      refine ⟨_, _, negated bound, ?_, ?_⟩
      · rw [toList_integerText_negSucc]
        exact .token .minus (spelled_integerText (n + 1)).spells
      · exact negate_int inside

/-! ## Comparing -/

variable {a b : Int}

/-- Two integers with a comparison between them are compared by the doubles nearest to them. -/
lemma evaluate_answer {op : Operator} (h : op.Compares)
    (ha : IntegerRange.signed64.holds a = true) (hb : IntegerRange.signed64.holds b = true) :
    evaluate (integerSource a ++ op.mark ++ integerSource b) =
      .ok (.bool (op.answer (nearestInt a) (nearestInt b))) := by
  obtain ⟨t, ts, left, spells, value⟩ := exists_written_integerSource ha
  obtain ⟨u, us, right, spells', value'⟩ := exists_written_integerSource hb
  have found : Level.comparison.operator? op.token = some (.binary op) := by
    cases op <;> first | rfl | exact h.elim
  have written : Written .either (.binary op t u) (ts ++ op.token :: us) :=
    .tighter (Nat.zero_le _) (.compared found left right)
  have text : Spells (ts ++ op.token :: us)
      (integerSource a ++ op.mark ++ integerSource b).toList := by
    rw [String.toList_append, String.toList_append, List.append_assoc]
    exact spells.append (.token op.spelled_mark spells')
  rw [written.derives.evaluate_eq text, Term.eval, value, value']
  exact apply_compares h a b

/-- An integer of the range is at most 2^63, whatever its sign. -/
lemma natAbs_le_of_holds (h : IntegerRange.signed64.holds i = true) : i.natAbs ≤ 2 ^ 63 := by
  rw [holds_iff] at h
  omega

/-- Integers that are ordered like others compare like them. -/
lemma Operator.answer_congr (op : Operator) {x y : Int} (less : x < y ↔ a < b)
    (greater : y < x ↔ b < a) : op.answer x y = op.answer a b := by
  cases op <;> simp only [Operator.answer, decide_eq_decide] <;> omega

/-- If two integers have different nearest doubles, these are ordered like the integers. -/
lemma nearestInt_lt_iff (apart : nearestInt a = nearestInt b → a = b) :
    nearestInt a < nearestInt b ↔ a < b := by
  have := nearestInt_mono (i := a) (j := b)
  have := nearestInt_mono (i := b) (j := a)
  omega

/-- Only integers of more than 53 bits that are near to each other round to one double. -/
lemma far_of_nearestInt_eq (ha : IntegerRange.signed64.holds a = true)
    (hb : IntegerRange.signed64.holds b = true) (same : nearestInt a = nearestInt b)
    (ne : a ≠ b) : 2 ^ 53 ≤ a.natAbs ∧ 2 ^ 53 ≤ b.natAbs ∧ (a - b).natAbs ≤ 1024 := by
  have left := nearestInt_near (natAbs_le_of_holds ha)
  have right := nearestInt_near (natAbs_le_of_holds hb)
  refine ⟨?_, ?_, by omega⟩
  · by_contra small
    exact ne (nearestInt_injective (Nat.lt_of_not_le small) same)
  · by_contra small
    exact ne (nearestInt_injective (Nat.lt_of_not_le small) same.symm).symm

/-- Integers of the range are compared by the doubles nearest to them. All comparisons of two
integers are right exactly if different integers round to different doubles. Rounding never reverses
two integers, and it makes one of two different integers only if both have more than 53 bits and
they are 1024 apart at most. -/
theorem evaluate_comparison (ha : IntegerRange.signed64.holds a = true)
    (hb : IntegerRange.signed64.holds b = true) :
    (∀ op : Operator, op.Compares →
      evaluate (integerSource a ++ op.mark ++ integerSource b) =
        .ok (.bool (op.answer (nearestInt a) (nearestInt b)))) ∧
      ((∀ op : Operator, op.Compares →
        evaluate (integerSource a ++ op.mark ++ integerSource b) =
          .ok (.bool (op.answer a b))) ↔ (nearestInt a = nearestInt b → a = b)) ∧
      (a ≤ b → nearestInt a ≤ nearestInt b) ∧ (b ≤ a → nearestInt b ≤ nearestInt a) ∧
      (nearestInt a = nearestInt b →
        a = b ∨ 2 ^ 53 ≤ a.natAbs ∧ 2 ^ 53 ≤ b.natAbs ∧ (a - b).natAbs ≤ 1024) := by
  refine ⟨fun op h => evaluate_answer h ha hb, ⟨fun right same => ?_, fun apart op h => ?_⟩,
    nearestInt_mono, nearestInt_mono, fun same => ?_⟩
  · have equal : Operator.equal.Compares := trivial
    have answers := (evaluate_answer equal ha hb).symm.trans (right .equal equal)
    simpa [Operator.answer, same] using answers
  · have answers := op.answer_congr (nearestInt_lt_iff apart)
      (nearestInt_lt_iff fun same => (apart same.symm).symm)
    rw [evaluate_answer h ha hb, answers]
  · by_cases eq : a = b
    · exact .inl eq
    · exact .inr (far_of_nearestInt_eq ha hb same eq)

/-- The least integer and an integer of 33 bits. -/
theorem evaluate_comparison_least :
    evaluate "-9223372036854775807-1<-4294967296" = .ok (.bool true) ∧
      evaluate "-9223372036854775807-1==-4294967296" = .ok (.bool false) := by
  obtain ⟨answers, -⟩ := evaluate_comparison (a := -9223372036854775808) (b := -4294967296)
    (by decide) (by decide)
  exact ⟨(answers .less trivial).trans rfl, (answers .equal trivial).trans rfl⟩

/-- The first integer that is no double compares like the one before it. -/
theorem not_evaluate_comparison :
    IntegerRange.signed64.holds 9007199254740992 = true ∧
      IntegerRange.signed64.holds 9007199254740993 = true ∧
      evaluate (integerSource 9007199254740992 ++ Operator.less.mark ++
        integerSource 9007199254740993) ≠ .ok (.bool (decide
          ((9007199254740992 : Int) < 9007199254740993))) ∧
      evaluate "9007199254740992<9007199254740993" = .ok (.bool false) ∧
      evaluate "9007199254740992==9007199254740993" = .ok (.bool true) := by
  have ha : IntegerRange.signed64.holds 9007199254740992 = true := by decide
  have hb : IntegerRange.signed64.holds 9007199254740993 = true := by decide
  have answers {op : Operator} (h : op.Compares) := evaluate_answer h ha hb
  have less := answers (show Operator.less.Compares from trivial)
  have equal := answers (show Operator.equal.Compares from trivial)
  have one : nearestInt 9007199254740992 = nearestInt 9007199254740993 := by decide +kernel
  rw [one] at less equal
  refine ⟨ha, hb, ?_, ?_, ?_⟩
  · rw [less]
    simp [Operator.answer]
  · exact less.trans (by simp [Operator.answer])
  · exact equal.trans (by simp [Operator.answer])

end ConfTree.Expression
