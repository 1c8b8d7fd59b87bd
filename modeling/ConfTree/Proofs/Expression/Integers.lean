import ConfTree.Proofs.Decimal.Rounding
import ConfTree.Proofs.Expression.Rendering
import Mathlib.Algebra.Group.Nat.Defs

/-!
# Integers between operators

Two words with an operator between them are evaluated to the operator applied to what they spell
(`evaluate_words`), and so are the decimal texts of two numbers (`evaluate_integers`). Integers are
compared by the doubles nearest to them (`apply_compares`), so numbers of up to 53 bits compare as
numbers (`apply_less`).
-/

namespace ConfTree.Expression

open ConfTree.Text

variable {n m : Nat}

/-! ## Words between operators -/

/-- The way that an operator is written. -/
def Operator.mark : Operator → String
  | .add => "+"
  | .sub => "-"
  | .mul => "*"
  | .div => "/"
  | .rem => "%"
  | .less => "<"
  | .atMost => "<="
  | .greater => ">"
  | .atLeast => ">="
  | .equal => "=="
  | .unequal => "!="

/-- An operator is spelled by its mark. -/
lemma Operator.spelled_mark (op : Operator) : op.token.Spelled op.mark.toList := by
  cases op <;> constructor

/-- Two words may stand on the sides of every operator. -/
lemma derives_words (op : Operator) (v w : String) :
    Level.either.Derives [.word v, op.token, .word w]
      (.binary op (.literal (.ofWord v)) (.literal (.ofWord w))) := by
  have word (l : Level) (w : String) : l.Derives [.word w] (.literal (.ofWord w)) :=
    (Level.Derives.word w).looser (by cases l <;> decide)
  have loose {k : Level} {ts : List Token} {t : Term} (h : k.Derives ts t) :
      Level.either.Derives ts t := h.looser (Nat.zero_le _)
  cases op with
  | add | sub => exact loose ((word .sum v).chained .sum rfl (word .product w))
  | mul | div | rem => exact loose ((word .product v).chained .product rfl (word .sign w))
  | _ => exact loose ((word .sum v).compared rfl (word .sum w))

/-- A text that is made of the characters of words. -/
def IsWord (w : String) : Prop := w.toList ≠ [] ∧ ∀ c ∈ w.toList, isWordChar c = true

/-- Two words with an operator between them are evaluated to what the operator makes of the values
that they spell. -/
lemma evaluate_words (op : Operator) {v w : String} (hv : IsWord v) (hw : IsWord w) :
    evaluate (v ++ op.mark ++ w) = op.apply (.ofWord v) (.ofWord w) := by
  have spells : Spells [.word v, op.token, .word w] (v ++ op.mark ++ w).toList := by
    rw [String.toList_append, String.toList_append, List.append_assoc]
    exact .token (.word hv.1 hv.2) (.token op.spelled_mark (Token.Spelled.word hw.1 hw.2).spells)
  rw [(derives_words op v w).evaluate_eq spells]
  rfl

/-- Digits are a word. -/
lemma isWord_of_digits {w : String} (filled : w.toList ≠ [])
    (digits : ∀ c ∈ w.toList, c.isDigit = true) : IsWord w :=
  ⟨filled, fun c hc => isWordChar_of_isDigit (digits c hc)⟩

/-- The digits of a natural number are a word. -/
lemma isWord_integerText (n : Nat) : IsWord (integerText n) :=
  isWord_of_digits (toList_toString_ne_nil n) fun _ => isDigit_of_mem_toString

/-- A number is spelled by its digits. -/
lemma spelled_integerText (n : Nat) :
    (Token.word (integerText n)).Spelled (toString n).toList :=
  .word (isWord_integerText n).1 (isWord_integerText n).2

/-- Two numbers with an operator between them are evaluated to what the operator makes of them. -/
lemma evaluate_integers (op : Operator) (hn : n ≤ IntegerRange.signed64.greatest)
    (hm : m ≤ IntegerRange.signed64.greatest) :
    evaluate (toString n ++ op.mark ++ toString m) = op.apply (.int n) (.int m) := by
  have words := evaluate_words op (isWord_integerText n) (isWord_integerText m)
  rwa [ofWord_integerText hn, ofWord_integerText hm] at words

/-! ## Comparisons -/

/-- The operators that compare. -/
def Operator.Compares : Operator → Prop
  | .less | .atMost | .greater | .atLeast | .equal | .unequal => True
  | _ => False

/-- The answer of a comparison of integers. -/
def Operator.answer : Operator → Int → Int → Bool
  | .less, a, b => a < b
  | .atMost, a, b => a ≤ b
  | .greater, a, b => b < a
  | .atLeast, a, b => b ≤ a
  | .equal, a, b => a = b
  | .unequal, a, b => a ≠ b
  | _, _, _ => false

/-- Integers are compared by the doubles nearest to them. -/
lemma apply_compares {op : Operator} (h : op.Compares) (a b : Int) :
    op.apply (.int a) (.int b) =
      .ok (.bool (op.answer (Decimal.nearestInt a) (Decimal.nearestInt b))) := by
  have order : Value.compare (.int a) (.int b) =
      compare (Decimal.nearestInt a) (Decimal.nearestInt b) := rfl
  cases op with
  | add | sub | mul | div | rem => exact h.elim
  | _ =>
    rw [Operator.apply, order]
    refine congrArg Except.ok (congrArg Value.bool (Bool.eq_iff_iff.2 ?_))
    simp only [Operator.answer, beq_iff_eq, bne_iff_ne, ne_eq, decide_eq_true_eq,
      Int.compare_eq_lt, Int.compare_eq_eq, Int.compare_eq_gt, Int.not_lt]

/-- Numbers of up to 53 bits compare as numbers. -/
lemma apply_less (hn : n ≤ 2 ^ 53) (hm : m ≤ 2 ^ 53) :
    Operator.less.apply (.int n) (.int m) = .ok (.bool (decide (n < m))) := by
  have less : Operator.less.Compares := trivial
  rw [apply_compares less, Decimal.nearestInt_eq (by omega), Decimal.nearestInt_eq (by omega),
    Operator.answer]
  simp only [Int.ofNat_lt]

/-- All integers but the least one have a negation. -/
lemma negate_int {i : Int} (h : i ≠ IntegerRange.signed64.least) :
    (Value.int i).negate = .ok (.int (-i)) := by
  rw [Value.negate, if_neg h]

/-- A sum that is in the range is an integer. -/
lemma apply_add (h : n + m ≤ IntegerRange.signed64.greatest) :
    Operator.add.apply (.int n) (.int m) = .ok (.int (n + m : Nat)) := by
  have inside : IntegerRange.signed64.holds (n + m) = true := by
    rw [holds_iff]
    exact ⟨by omega, h⟩
  rw [Operator.apply, Value.add, if_pos inside]
  rfl

end ConfTree.Expression
