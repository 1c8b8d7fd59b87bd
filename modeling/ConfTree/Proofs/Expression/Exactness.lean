import ConfTree.Proofs.Expression.Steps
import Mathlib.Algebra.Order.Floor.Ring
import Mathlib.Data.Rat.Floor

/-!
# Exact integers

In arithmetic on literals of integers, an integer is never made of anything but integers: a sum out
of the range and a quotient that is not whole are doubles, and a double makes doubles only. So an
integer that comes out is the exact value of the expression (`Term.exact`), and so are all results
on the way to it. The faults are those of the steps that the evaluation gets to
(`Term.eval_error_iff`), and each step tells from its values whether it fails.
-/

namespace ConfTree.Expression

open ConfTree.Text

/-! ## Arithmetic -/

/-- The operators on numbers that yield numbers. -/
def Operator.Numeric : Operator → Prop
  | .add | .sub | .mul | .div | .rem => True
  | _ => False

/-- The tokens of arithmetic: literals of integers, operators on numbers, and parentheses. -/
def Token.Numeric : Token → Prop
  | .word w => w.toList ≠ [] ∧ (∀ c ∈ w.toList, c.isDigit = true) ∧
      Nat.ofDigitChars 10 w.toList 0 ≤ IntegerRange.signed64.greatest
  | .plus | .minus | .star | .slash | .percent | .leftParen | .rightParen => True
  | _ => False

/-- The terms of arithmetic. -/
inductive Term.Numeric : Term → Prop where
  | literal {n : Nat} :
    n ≤ IntegerRange.signed64.greatest →
    Numeric (.literal (.int n))
  | negate {t} :
    Numeric t →
    Numeric (.negate t)
  | binary {op l r} :
    op.Numeric →
    Numeric l →
    Numeric r →
    Numeric (.binary op l r)

/-- The numbers: integers of the range, and doubles. -/
def Value.Numeric : Value → Prop
  | .int i => IntegerRange.signed64.holds i = true
  | .float _ => True
  | _ => False

/-- An operator of arithmetic has a term of arithmetic between two of them. -/
lemma Token.Numeric.operator {l : Level} {mark : Token} {op : Term → Term → Term}
    (h : mark.Numeric) (found : l.operator? mark = some op) {a b : Term} (ha : a.Numeric)
    (hb : b.Numeric) : (op a b).Numeric := by
  cases mark with
  | plus | minus | star | slash | percent =>
    cases l <;> cases found
    exact .binary trivial ha hb
  | word | leftParen | rightParen => cases l <;> cases found
  | _ => exact h.elim

mutual

/-- The tokens of arithmetic spell terms of arithmetic. -/
lemma Phrase.numeric : {l : Level} → (p : Phrase l) → (∀ t ∈ p.tokens, t.Numeric) →
    p.term.Numeric
  | _, .chain _ first others, h => by
    rw [Phrase.tokens] at h
    exact others.numeric (fun t ht => h t (List.mem_append_right _ ht))
      (first.numeric fun t ht => h t (List.mem_append_left _ ht))
  | _, .alone p, h => p.numeric h
  | _, .compared mark _ found p q, h => by
    rw [Phrase.tokens] at h
    have left := p.numeric fun t ht => h t (List.mem_append_left _ ht)
    have right := q.numeric fun t ht =>
      h t (List.mem_append_right _ (List.mem_cons_of_mem mark ht))
    exact (h mark (List.mem_append_right _ List.mem_cons_self)).operator found left right
  | _, .minus p, h => .negate (p.numeric fun t ht => h t (List.mem_cons_of_mem _ ht))
  | _, .bang p, h => (h .bang List.mem_cons_self).elim
  | _, .primary p, h => p.numeric h
  | _, .word w, h => by
    obtain ⟨filled, digits, bound⟩ := h (.word w) List.mem_cons_self
    rw [Phrase.term, ofWord_digits filled digits, if_pos bound]
    exact .literal bound
  | _, .quoted s, h => (h (.quoted s) List.mem_cons_self).elim
  | _, .enclosed p, h =>
    p.numeric fun t ht => h t (List.mem_cons_of_mem _ (List.mem_append_left _ ht))
  | _, .choice c p q, h => (h .question (List.mem_cons_of_mem _ List.mem_cons_self)).elim

/-- A chain of numeric operands is a numeric term. -/
lemma Chain.numeric : {l k : Level} → (c : Chain l k) → (∀ t ∈ c.tokens, t.Numeric) →
    ∀ {left : Term}, left.Numeric → (c.termFrom left).Numeric
  | _, _, .done, _, _, hl => hl
  | _, _, .more mark _ found operand others, h, _, hl => by
    rw [Chain.tokens] at h
    have right := operand.numeric fun t ht =>
      h t (List.mem_cons_of_mem mark (List.mem_append_left _ ht))
    exact others.numeric (fun t ht => h t (List.mem_cons_of_mem mark (List.mem_append_right _ ht)))
      ((h mark List.mem_cons_self).operator found hl right)

end

/-! ## Exact values -/

/-- The integer part of a number, on the side of zero. -/
def cut (x : ℚ) : ℤ := if 0 ≤ x then ⌊x⌋ else ⌈x⌉

/-- The exact result of an operator on numbers. A remainder is what a quotient cut to an integer
leaves over. -/
def Operator.exact : Operator → ℚ → ℚ → ℚ
  | .add, x, y => x + y
  | .sub, x, y => x - y
  | .mul, x, y => x * y
  | .div, x, y => x / y
  | .rem, x, y => x - y * cut (x / y)
  | _, _, _ => 0

/-- The exact value of a term of arithmetic. -/
def Term.exact : Term → ℚ
  | .literal (.int i) => i
  | .negate t => -t.exact
  | .binary op l r => op.exact l.exact r.exact
  | _ => 0

/-- The term is a part of the other one, or the whole of it. -/
inductive Term.Within (s : Term) : Term → Prop where
  | self : Within s s
  | negate {t} :
    Within s t →
    Within s (.negate t)
  | left {op l r} :
    Within s l →
    Within s (.binary op l r)
  | right {op l r} :
    Within s r →
    Within s (.binary op l r)

/-- Cutting goes towards zero on both sides. -/
lemma cut_neg (x : ℚ) : cut (-x) = -cut x := by
  rcases lt_trichotomy x 0 with neg | rfl | pos
  · rw [cut, cut, if_pos (by linarith), if_neg (not_le.2 neg), Int.floor_neg]
  · rfl
  · rw [cut, cut, if_neg (by linarith), if_pos pos.le, Int.ceil_neg]

/-- A quotient of integers is cut to the quotient towards zero. -/
lemma cut_div (a b : ℤ) : cut (a / b) = a.tdiv b := by
  have naturals : ∀ m n : ℕ, cut ((m : ℤ) / (n : ℤ)) = (m : ℤ).tdiv n := by
    intro m n
    have nonneg : (0 : ℚ) ≤ ((m : ℤ) : ℚ) / ((n : ℤ) : ℚ) := by positivity
    rw [cut, if_pos nonneg, Int.cast_natCast n, Rat.floor_intCast_div_natCast,
      Int.tdiv_eq_ediv_of_nonneg (Int.natCast_nonneg m)]
  obtain ⟨m, rfl | rfl⟩ := a.eq_nat_or_neg <;> obtain ⟨n, rfl | rfl⟩ := b.eq_nat_or_neg
  · exact naturals m n
  · rw [Int.cast_neg, div_neg, cut_neg, naturals, Int.tdiv_neg]
  · rw [Int.cast_neg, neg_div, cut_neg, naturals, Int.neg_tdiv]
  · rw [Int.cast_neg, Int.cast_neg, neg_div_neg_eq, naturals, Int.neg_tdiv, Int.tdiv_neg, neg_neg]

/-! ## Steps -/

namespace Step

/-- A step on numbers. -/
def Numeric : Step → Prop
  | negation v => v.Numeric
  | operation op v w => op.Numeric ∧ v.Numeric ∧ w.Numeric

/-- A negation, a difference or a product of integers that is out of the range. -/
def Overflows : Step → Prop
  | negation (.int a) => ¬ IntegerRange.signed64.holds (-a) = true
  | operation .sub (.int a) (.int b) => ¬ IntegerRange.signed64.holds (a - b) = true
  | operation .mul (.int a) (.int b) => ¬ IntegerRange.signed64.holds (a * b) = true
  | _ => False

/-- A quotient or a remainder whose divisor is zero. -/
def DividesByZero : Step → Prop
  | operation .div _ w => w.isZero = true
  | operation .rem _ w => w.isZero = true
  | _ => False

/-- The remainder of the least integer by minus one. -/
def ExtremeRemainder : Step → Prop
  | operation .rem (.int a) (.int b) => a = IntegerRange.signed64.least ∧ b = -1
  | _ => False

/-- A step on integers whose exact result is the integer. -/
def Yields (i : ℤ) : Step → Prop
  | negation v => ∃ a : ℤ, v = .int a ∧ i = -a
  | operation op v w => ∃ a b : ℤ, v = .int a ∧ w = .int b ∧ (i : ℚ) = op.exact a b

/-- How a step can end. -/
inductive Ends (s : Step) : Result → Prop where
  | value {v : Value} :
    ¬ s.Overflows →
    ¬ s.DividesByZero →
    v.Numeric →
    (∀ i, v = .int i → s.Yields i) →
    Ends s (.ok v)
  | overflow :
    s.Overflows →
    Ends s (.error (.fails .overflow))
  | remainder :
    s.ExtremeRemainder →
    ¬ s.DividesByZero →
    Ends s (.error (.fails .overflow))
  | divisionByZero :
    s.DividesByZero →
    Ends s (.error (.fails .divisionByZero))
  | panics :
    s.Panics →
    ¬ s.DividesByZero →
    Ends s (.error .panics)

end Step

variable {v w : Value}

namespace Step

/-- A whole quotient is exact. -/
lemma yields_div {a b : ℤ} (zero : b ≠ 0) (whole : a.tmod b = 0) :
    (operation .div (.int a) (.int b)).Yields (a.tdiv b) := by
  refine ⟨a, b, rfl, rfl, ?_⟩
  have nonzero : (b : ℚ) ≠ 0 := Int.cast_ne_zero.2 zero
  have product := Int.tmod_add_mul_tdiv a b
  rw [whole, zero_add] at product
  rw [Operator.exact, eq_div_iff nonzero, mul_comm]
  exact_mod_cast product

/-- The remainder of integers is exact. -/
lemma yields_rem (a b : ℤ) : (operation .rem (.int a) (.int b)).Yields (a.tmod b) := by
  refine ⟨a, b, rfl, rfl, ?_⟩
  rw [Operator.exact, cut_div, Int.tmod_def]
  push_cast
  rfl

/-- The negation of a number ends in its opposite. -/
lemma ends_negation (hv : v.Numeric) : (negation v).Ends v.negate := by
  cases v with
  | int a =>
    rw [Value.negate]
    have inside : IntegerRange.signed64.holds a = true := hv
    rw [holds_iff] at inside
    split
    case isTrue least =>
      refine .overflow ?_
      rw [Overflows, holds_iff]
      change a = -9223372036854775808 at least
      omega
    case isFalse other =>
      have range : IntegerRange.signed64.holds (-a) = true := by
        rw [holds_iff]
        change ¬ a = -9223372036854775808 at other
        omega
      refine .value (not_not_intro range) id range ?_
      rintro _ ⟨⟩
      exact ⟨a, rfl, rfl⟩
  | float x => exact .value id id trivial fun i same => by cases same
  | bool | text => exact hv.elim

/-- The sum of numbers ends in their sum. -/
lemma ends_add (hv : v.Numeric) (hw : w.Numeric) : (operation .add v w).Ends (.ok (v.add w)) := by
  cases v with
  | int a =>
    cases w with
    | int b =>
      rw [Value.add]
      split
      case isTrue inside =>
        refine .value id id inside ?_
        rintro _ ⟨⟩
        exact ⟨a, b, rfl, rfl, Int.cast_add a b⟩
      case isFalse => exact .value id id trivial nofun
    | float y => exact .value id id trivial nofun
    | bool | text => exact hw.elim
  | float x =>
    cases w with
    | int | float => exact .value id id trivial nofun
    | bool | text => exact hw.elim
  | bool | text => exact hv.elim

/-- A difference or a product of integers. -/
lemma ends_checked {op : Operator} {a b c : ℤ}
    (overflows : (operation op (.int a) (.int b)).Overflows ↔
      ¬ IntegerRange.signed64.holds c = true)
    (divides : ¬ (operation op (.int a) (.int b)).DividesByZero)
    (exact : (c : ℚ) = op.exact a b) : (operation op (.int a) (.int b)).Ends (checked c) := by
  rw [checked]
  split
  case isTrue inside =>
    refine .value (fun h => overflows.1 h inside) divides inside ?_
    rintro _ ⟨⟩
    exact ⟨a, b, rfl, rfl, exact⟩
  case isFalse outside => exact .overflow (overflows.2 outside)

/-- A quotient of integers. -/
lemma ends_div {a b : ℤ} (ha : IntegerRange.signed64.holds a = true) :
    (operation .div (.int a) (.int b)).Ends (Arithmetic.div.onInts a b) := by
  rw [Arithmetic.onInts, remainder?_eq ha]
  split
  case isTrue zero => exact .divisionByZero (beq_iff_eq.2 zero)
  case isFalse nonzero =>
    have divides : ¬ (operation .div (.int a) (.int b)).DividesByZero :=
      fun zero => nonzero (beq_iff_eq.1 zero)
    by_cases extreme : a = IntegerRange.signed64.least ∧ b = -1
    · rw [if_pos extreme]
      exact .panics extreme divides
    · rw [if_neg extreme]
      dsimp only
      split
      case isTrue => exact .value id divides trivial fun i same => by cases same
      case isFalse whole =>
        have inside := holds_tdiv ha extreme
        rw [checked, if_pos inside]
        refine .value id divides inside ?_
        rintro _ ⟨⟩
        exact yields_div nonzero (not_not.1 whole)

/-- A remainder of integers. -/
lemma ends_rem {a b : ℤ} (ha : IntegerRange.signed64.holds a = true) :
    (operation .rem (.int a) (.int b)).Ends (Arithmetic.rem.onInts a b) := by
  rw [Arithmetic.onInts, remainder?_eq ha]
  split
  case isTrue zero => exact .divisionByZero (beq_iff_eq.2 zero)
  case isFalse nonzero =>
    have divides : ¬ (operation .rem (.int a) (.int b)).DividesByZero :=
      fun zero => nonzero (beq_iff_eq.1 zero)
    by_cases extreme : a = IntegerRange.signed64.least ∧ b = -1
    · rw [if_pos extreme]
      exact .remainder extreme divides
    · rw [if_neg extreme]
      refine .value id divides (holds_tmod ha b) ?_
      rintro _ ⟨⟩
      exact yields_rem a b

/-- Only integers overflow. -/
lemma Overflows.integers {op : Operator} (h : (operation op v w).Overflows) :
    ∃ a b, v = .int a ∧ w = .int b := by
  cases v with
  | int a =>
    cases w with
    | int b => exact ⟨a, b, rfl, rfl⟩
    | _ => cases op <;> exact h.elim
  | _ => cases op <;> exact h.elim

/-- Numbers that are not both integers are taken for doubles. -/
lemma ends_floats {op : Operator} {arithmetic : Arithmetic} (hv : v.Numeric) (hw : w.Numeric)
    (mixed : ∀ a b, v = .int a → w ≠ .int b)
    (divides : (operation op v w).DividesByZero ↔ (arithmetic.divides && w.isZero) = true) :
    (operation op v w).Ends (arithmetic.apply v w) := by
  have run : ∃ z, arithmetic.apply v w =
      if arithmetic.divides && w.isZero then .error (.fails .divisionByZero)
      else .ok (.float z) := by
    cases v with
    | int a =>
      cases w with
      | int b => exact absurd rfl (mixed a b rfl)
      | float y => exact ⟨_, rfl⟩
      | bool | text => exact hw.elim
    | float x =>
      cases w with
      | int | float => exact ⟨_, rfl⟩
      | bool | text => exact hw.elim
    | bool | text => exact hv.elim
  obtain ⟨z, run⟩ := run
  rw [run]
  split
  case isTrue zero => exact .divisionByZero (divides.2 zero)
  case isFalse nonzero =>
    refine .value (fun outside => ?_) (fun h => nonzero (divides.1 h)) trivial nofun
    obtain ⟨a, b, left, right⟩ := outside.integers
    exact mixed a b left right

/-- A step on numbers ends in one of these ways. -/
lemma Numeric.ends {s : Step} (h : s.Numeric) : s.Ends s.outcome := by
  match s with
  | negation v => exact ends_negation h
  | operation op v w =>
    obtain ⟨arithmetic, hv, hw⟩ := h
    rw [outcome]
    by_cases integers : ∃ a b, v = .int a ∧ w = .int b
    · obtain ⟨a, b, rfl, rfl⟩ := integers
      cases op with
      | add => exact ends_add hv hw
      | sub => exact ends_checked .rfl id (Int.cast_sub a b)
      | mul => exact ends_checked .rfl id (Int.cast_mul a b)
      | div => exact ends_div hv
      | rem => exact ends_rem hv
      | _ => exact arithmetic.elim
    · have mixed : ∀ a b, v = .int a → w ≠ .int b := fun a b hv hw => integers ⟨a, b, hv, hw⟩
      cases op with
      | add => exact ends_add hv hw
      | sub | mul | div | rem =>
        exact ends_floats hv hw mixed (by simp [DividesByZero, Arithmetic.divides])
      | _ => exact arithmetic.elim

variable {s : Step} {r : Result}

/-- What divides does not overflow. -/
lemma Overflows.not_divides (h : s.Overflows) : ¬ s.DividesByZero := by
  unfold Overflows at h
  split at h
  case h_4 => exact h.elim
  all_goals exact id

/-- What panics does not overflow. -/
lemma Overflows.not_panics (h : s.Overflows) : ¬ s.Panics := by
  unfold Overflows at h
  split at h
  case h_4 => exact h.elim
  all_goals exact id

/-- A step overflows if its exact result is out of the range, and else only with the extreme
remainder. -/
lemma Ends.overflow_spec (h : s.Ends r) :
    (s.Overflows → r = .error (.fails .overflow)) ∧
      (r = .error (.fails .overflow) → s.Overflows ∨ s.ExtremeRemainder) := by
  cases h with
  | value inside => exact ⟨fun h => absurd h inside, nofun⟩
  | overflow outside => exact ⟨fun _ => rfl, fun _ => .inl outside⟩
  | remainder extreme => exact ⟨fun _ => rfl, fun _ => .inr extreme⟩
  | divisionByZero zero => exact ⟨fun outside => absurd zero outside.not_divides, nofun⟩
  | panics extreme => exact ⟨fun outside => absurd extreme outside.not_panics, nofun⟩

/-- A step divides by zero exactly if its divisor is zero. -/
lemma Ends.divisionByZero_iff (h : s.Ends r) :
    r = .error (.fails .divisionByZero) ↔ s.DividesByZero := by
  cases h with
  | value _ nonzero => exact ⟨nofun, fun h => absurd h nonzero⟩
  | overflow outside => exact ⟨nofun, fun h => absurd h outside.not_divides⟩
  | remainder _ nonzero | panics _ nonzero => exact ⟨nofun, fun h => absurd h nonzero⟩
  | divisionByZero zero => exact ⟨fun _ => zero, fun _ => rfl⟩

/-- A step with a value yields it. -/
lemma Ends.of_ok (h : s.Ends (.ok v)) : v.Numeric ∧ ∀ i, v = .int i → s.Yields i := by
  cases h with
  | value _ _ numeric exact => exact ⟨numeric, exact⟩

/-- A step on numbers fails in two ways only. -/
lemma Ends.of_fails {fault : Fault} (h : s.Ends (.error (.fails fault))) :
    fault = .overflow ∨ fault = .divisionByZero := by
  cases h with
  | overflow | remainder => exact .inl rfl
  | divisionByZero => exact .inr rfl

end Step

/-! ## Evaluation -/

namespace Term

variable {s : Step} {t l r : Term} {op : Operator} {i : ℤ}

/-- What comes out of arithmetic is a number. -/
lemma Numeric.value (h : t.Numeric) {v : Value} (run : t.eval = .ok v) : v.Numeric := by
  induction h generalizing v with
  | @literal n bound =>
    cases run
    rw [Value.Numeric, holds_iff]
    change (n : ℤ) ≤ 9223372036854775807 at bound
    omega
  | negate _ ih =>
    obtain ⟨fault, -, eq⟩ | ⟨u, hu, eq⟩ := eval_negate run
    · cases eq
    · have ends := Step.Numeric.ends (s := .negation u) (ih hu)
      rw [← eq] at ends
      exact ends.of_ok.1
  | binary arithmetic _ _ ihl ihr =>
    obtain ⟨fault, -, eq⟩ | ⟨u, fault, -, -, eq⟩ | ⟨u, w, hu, hw, eq⟩ := eval_binary run
    · cases eq
    · cases eq
    · have ends := Step.Numeric.ends (s := .operation _ u w) ⟨arithmetic, ihl hu, ihr hw⟩
      rw [← eq] at ends
      exact ends.of_ok.1

/-- Arithmetic gets to steps on numbers only. -/
lemma Numeric.step (h : t.Numeric) (reaches : t.Reaches s) : s.Numeric := by
  induction reaches with
  | negation run =>
    cases h with
    | negate ht => exact ht.value run
  | negated _ ih =>
    cases h with
    | negate ht => exact ih ht
  | operation left right =>
    cases h with
    | binary arithmetic hl hr => exact ⟨arithmetic, hl.value left, hr.value right⟩
  | left _ ih =>
    cases h with
    | binary _ hl _ => exact ih hl
  | right _ _ ih =>
    cases h with
    | binary _ _ hr => exact ih hr
  -- Arithmetic has no connectives and no choices.
  | denied | both | bothRight | either | eitherRight | condition | first | second => cases h

/-- An integer that comes out of arithmetic is made of integers. -/
lemma eval_negate_int (h : (negate t).Numeric) (run : (negate t).eval = .ok (.int i)) :
    ∃ a, t.eval = .ok (.int a) ∧ i = -a := by
  obtain ⟨fault, -, eq⟩ | ⟨v, hv, eq⟩ := eval_negate run
  · cases eq
  · have ends := (h.step (.negation hv)).ends
    rw [← eq] at ends
    obtain ⟨a, rfl, value⟩ := ends.of_ok.2 i rfl
    exact ⟨a, hv, value⟩

/-- An integer that a numeric operation gives is the exact result for the integers on its sides. -/
lemma eval_binary_int (h : (binary op l r).Numeric) (run : (binary op l r).eval = .ok (.int i)) :
    ∃ a b : ℤ, l.eval = .ok (.int a) ∧ r.eval = .ok (.int b) ∧ (i : ℚ) = op.exact a b := by
  obtain ⟨fault, -, eq⟩ | ⟨v, fault, -, -, eq⟩ | ⟨v, w, hv, hw, eq⟩ := eval_binary run
  · cases eq
  · cases eq
  · have ends := (h.step (.operation hv hw)).ends
    rw [← eq] at ends
    obtain ⟨a, b, rfl, rfl, value⟩ := ends.of_ok.2 i rfl
    exact ⟨a, b, hv, hw, value⟩

/-- An integer that comes out of arithmetic is the exact value. -/
lemma Numeric.eval_int (h : t.Numeric) (run : t.eval = .ok (.int i)) : (i : ℚ) = t.exact := by
  induction h generalizing i with
  | literal =>
    cases run
    rfl
  | @negate t ht ih =>
    obtain ⟨a, operand, rfl⟩ := eval_negate_int (.negate ht) run
    rw [exact, ← ih operand, Int.cast_neg]
  | @binary op l r arithmetic hl hr ihl ihr =>
    obtain ⟨a, b, left, right, value⟩ := eval_binary_int (.binary arithmetic hl hr) run
    rw [exact, ← ihl left, ← ihr right, value]

/-- All parts of a term with an integer value have integer values. -/
lemma Within.eval_int {u : Term} (h : u.Within t) (numeric : t.Numeric)
    (run : t.eval = .ok (.int i)) : u.Numeric ∧ ∃ j, u.eval = .ok (.int j) := by
  induction h generalizing i with
  | self => exact ⟨numeric, i, run⟩
  | negate _ ih =>
    obtain ⟨a, operand, -⟩ := eval_negate_int numeric run
    cases numeric with
    | negate ht => exact ih ht operand
  | left _ ih =>
    obtain ⟨a, b, left, -⟩ := eval_binary_int numeric run
    cases numeric with
    | binary _ hl _ => exact ih hl left
  | right _ ih =>
    obtain ⟨a, b, -, right, -⟩ := eval_binary_int numeric run
    cases numeric with
    | binary _ _ hr => exact ih hr right

end Term

/-! ## Texts -/

/-- A text of arithmetic that is evaluated to an integer has this integer as its exact value, and
all its parts have integers of the range as values, which are exact as well. It fails with an
overflow if a negation, a difference or a product of integers that the evaluation gets to is out of
the range, and else only at the remainder of the least integer by minus one. It fails with a
division by zero exactly if the evaluation gets to a divisor that is zero. In no other way it fails,
and it panics exactly if the evaluation gets to the quotient of the least integer by minus one. -/
theorem evaluate_exact {source : String} {tokens : List Token} {t : Term}
    (spelled : tokenize source.toList = .ok tokens) (numeric : ∀ u ∈ tokens, u.Numeric)
    (derived : Term.ofTokens tokens = .ok t) :
    (∀ i : ℤ, evaluate source = .ok (.int i) → (i : ℚ) = t.exact ∧
      ∀ u : Term, u.Within t → ∃ j : ℤ, u.eval = .ok (.int j) ∧ (j : ℚ) = u.exact ∧
        IntegerRange.signed64.holds j = true) ∧
      ((∃ s, t.Reaches s ∧ s.Overflows) → evaluate source = .error (.fails .overflow)) ∧
      (evaluate source = .error (.fails .overflow) →
        ∃ s, t.Reaches s ∧ (s.Overflows ∨ s.ExtremeRemainder)) ∧
      (evaluate source = .error (.fails .divisionByZero) ↔ ∃ s, t.Reaches s ∧ s.DividesByZero) ∧
      (evaluate source = .error .panics ↔ ∃ s, t.Reaches s ∧ s.Panics) ∧
      ∀ fault, evaluate source = .error (.fails fault) →
        fault = .overflow ∧ fault.message = "integer overflow" ∨
          fault = .divisionByZero ∧ fault.message = "division by zero" := by
  obtain ⟨p, rfl, rfl⟩ := exists_phrase derived
  have term := p.numeric numeric
  rw [evaluate_eq spelled derived]
  refine ⟨fun i run => ⟨term.eval_int run, fun u part => ?_⟩, ?_, ?_, ?_, ?_, ?_⟩
  · obtain ⟨numeric', j, run'⟩ := part.eval_int term run
    exact ⟨j, run', numeric'.eval_int run', numeric'.value run'⟩
  · rintro ⟨s, reaches, outside⟩
    exact Term.eval_error_iff.2 ⟨s, reaches, (term.step reaches).ends.overflow_spec.1 outside⟩
  · intro fails
    obtain ⟨s, reaches, fails⟩ := Term.eval_error_iff.1 fails
    exact ⟨s, reaches, (term.step reaches).ends.overflow_spec.2 fails⟩
  · rw [Term.eval_error_iff]
    exact exists_congr fun s => and_congr_right fun reaches =>
      (term.step reaches).ends.divisionByZero_iff
  · rw [Term.eval_error_iff]
    exact exists_congr fun s => and_congr_right fun reaches => (p.inRange.step reaches).panics_iff
  · intro fault fails
    obtain ⟨s, reaches, fails⟩ := Term.eval_error_iff.1 fails
    have ends := (term.step reaches).ends
    rw [fails] at ends
    rcases ends.of_fails with rfl | rfl
    · exact .inl ⟨rfl, rfl⟩
    · exact .inr ⟨rfl, rfl⟩

/-- A remainder of the least integer, and a product that is out of the range in front of a divisor
that is zero. -/
theorem evaluate_exact_least :
    (evaluate "(-9223372036854775807 - 1) % 10" = .ok (.int (-8)) ∧
      ((-8 : ℤ) : ℚ) = Term.exact (.binary .rem (.binary .sub
        (.negate (.literal (.int 9223372036854775807))) (.literal (.int 1)))
          (.literal (.int 10)))) ∧
      evaluate "9223372036854775807*(-2)/0" = .error (.fails .overflow) := by
  have spelled : tokenize "(-9223372036854775807 - 1) % 10".toList =
      .ok [.leftParen, .minus, .word "9223372036854775807", .minus, .word "1", .rightParen,
        .percent, .word "10"] := by decide +kernel
  have derived : Term.ofTokens [.leftParen, .minus, .word "9223372036854775807", .minus, .word "1",
        .rightParen, .percent, .word "10"] =
      .ok (.binary .rem (.binary .sub (.negate (.literal (.int 9223372036854775807)))
        (.literal (.int 1))) (.literal (.int 10))) := rfl
  have spelled' : tokenize "9223372036854775807*(-2)/0".toList =
      .ok [.word "9223372036854775807", .star, .leftParen, .minus, .word "2", .rightParen, .slash,
        .word "0"] := by decide +kernel
  have derived' : Term.ofTokens [.word "9223372036854775807", .star, .leftParen, .minus, .word "2",
        .rightParen, .slash, .word "0"] =
      .ok (.binary .div (.binary .mul (.literal (.int 9223372036854775807))
        (.negate (.literal (.int 2)))) (.literal (.int 0))) := rfl
  have run : evaluate "(-9223372036854775807 - 1) % 10" = .ok (.int (-8)) :=
    (evaluate_eq spelled derived).trans rfl
  obtain ⟨exact, -⟩ := evaluate_exact spelled (by simp [Token.Numeric]; decide) derived
  obtain ⟨-, overflow, -⟩ := evaluate_exact spelled' (by simp [Token.Numeric]; decide) derived'
  refine ⟨⟨run, (exact _ run).1⟩, overflow ⟨_, .left (.operation rfl rfl), ?_⟩⟩
  rw [Step.Overflows]
  decide

end ConfTree.Expression
