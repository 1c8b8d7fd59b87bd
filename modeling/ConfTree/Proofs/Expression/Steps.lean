import ConfTree.Proofs.Expression.Rendering

/-!
# Steps of an evaluation

An evaluation applies operators to values. These steps are what it can fail or panic with: a term
ends without a value exactly if its evaluation gets to a step that does (`Term.eval_error_iff`).
All integers that it gets to are in the range, so a step panics exactly if it divides the least
integer by minus one (`evaluate_panics_iff`).
-/

namespace ConfTree.Expression

open ConfTree.Text

/-- An application of an operator to values. -/
inductive Step where
  | negation (v : Value)
  | operation (op : Operator) (v w : Value)

/-- What comes out of a step. -/
def Step.outcome : Step → Result
  | negation v => v.negate
  | operation op v w => op.apply v w

/-- The evaluation of the term gets to the step. -/
inductive Term.Reaches : Term → Step → Prop where
  | negation {t v} :
    t.eval = .ok v →
    Reaches (.negate t) (.negation v)
  | negated {t s} :
    Reaches t s →
    Reaches (.negate t) s
  | operation {op l r v w} :
    l.eval = .ok v →
    r.eval = .ok w →
    Reaches (.binary op l r) (.operation op v w)
  | left {op l r s} :
    Reaches l s →
    Reaches (.binary op l r) s
  | right {op l r v s} :
    l.eval = .ok v →
    Reaches r s →
    Reaches (.binary op l r) s
  | denied {t s} :
    Reaches t s →
    Reaches (.not t) s
  | both {l r s} :
    Reaches l s →
    Reaches (.both l r) s
  | bothRight {l r v s} :
    l.eval = .ok v →
    v.isTruthy = true →
    Reaches r s →
    Reaches (.both l r) s
  | either {l r s} :
    Reaches l s →
    Reaches (.either l r) s
  | eitherRight {l r v s} :
    l.eval = .ok v →
    v.isTruthy = false →
    Reaches r s →
    Reaches (.either l r) s
  | condition {c l r s} :
    Reaches c s →
    Reaches (.choice c l r) s
  | first {c l r v s} :
    c.eval = .ok v →
    v.isTruthy = true →
    Reaches l s →
    Reaches (.choice c l r) s
  | second {c l r v s} :
    c.eval = .ok v →
    v.isTruthy = false →
    Reaches r s →
    Reaches (.choice c l r) s

namespace Term

variable {s : Step} {t l r c : Term} {op : Operator} {result : Result} {e : Exit Fault}

/-! ## Ends of an evaluation -/

/-- A negation ends as its operand, or makes its step. -/
lemma eval_negate (h : (negate t).eval = result) :
    (∃ e, t.eval = .error e ∧ result = .error e) ∨
      ∃ v, t.eval = .ok v ∧ result = (Step.negation v).outcome := by
  subst h
  rw [eval]
  cases t.eval with
  | error e => exact .inl ⟨e, rfl, rfl⟩
  | ok v => exact .inr ⟨v, rfl, rfl⟩

/-- An operator ends as its left side, or as its right side behind it, or makes its step. -/
lemma eval_binary (h : (binary op l r).eval = result) :
    (∃ e, l.eval = .error e ∧ result = .error e) ∨
      (∃ v e, l.eval = .ok v ∧ r.eval = .error e ∧ result = .error e) ∨
      ∃ v w, l.eval = .ok v ∧ r.eval = .ok w ∧ result = (Step.operation op v w).outcome := by
  subst h
  rw [eval]
  cases l.eval with
  | error e => exact .inl ⟨e, rfl, rfl⟩
  | ok v =>
    cases r.eval with
    | error e => exact .inr (.inl ⟨v, e, rfl, rfl, rfl⟩)
    | ok w => exact .inr (.inr ⟨v, w, rfl, rfl, rfl⟩)

/-- A denial ends without a value as what it denies. -/
lemma eval_not_error : (Term.not t).eval = .error e ↔ t.eval = .error e := by
  rw [eval, bind_eq_error_iff]
  refine or_iff_left ?_
  rintro ⟨v, -, ⟨⟩⟩

/-- The connective that asks for both sides ends without a value as its left side, or as its right
side behind a left side that holds. -/
lemma eval_both_error : (both l r).eval = .error e ↔
    l.eval = .error e ∨ ∃ v, l.eval = .ok v ∧ v.isTruthy = true ∧ r.eval = .error e := by
  rw [eval, bind_eq_error_iff]
  refine or_congr_right (exists_congr fun v => and_congr_right fun _ => ?_)
  cases v.isTruthy with
  | false => exact ⟨nofun, nofun⟩
  | true =>
    rw [if_pos rfl, bind_eq_error_iff]
    simp [pure, Except.pure]

/-- The connective that asks for one side ends without a value as its left side, or as its right
side behind a left side that does not hold. -/
lemma eval_either_error : (either l r).eval = .error e ↔
    l.eval = .error e ∨ ∃ v, l.eval = .ok v ∧ v.isTruthy = false ∧ r.eval = .error e := by
  rw [eval, bind_eq_error_iff]
  refine or_congr_right (exists_congr fun v => and_congr_right fun _ => ?_)
  cases v.isTruthy with
  | true => exact ⟨nofun, nofun⟩
  | false =>
    rw [if_neg (by decide), bind_eq_error_iff]
    simp [pure, Except.pure]

/-- A choice ends without a value as its condition, or as the side that the condition chooses. -/
lemma eval_choice_error : (choice c l r).eval = .error e ↔
    c.eval = .error e ∨
      (∃ v, c.eval = .ok v ∧ v.isTruthy = true ∧ l.eval = .error e) ∨
      ∃ v, c.eval = .ok v ∧ v.isTruthy = false ∧ r.eval = .error e := by
  rw [eval, bind_eq_error_iff, ← exists_or]
  refine or_congr_right (exists_congr fun v => ?_)
  rw [← and_or_left]
  refine and_congr_right fun _ => ?_
  cases v.isTruthy <;> simp

/-- A term ends without a value exactly with a step that its evaluation gets to. -/
lemma eval_error_iff : t.eval = .error e ↔ ∃ s, t.Reaches s ∧ s.outcome = .error e := by
  induction t with
  | literal => exact ⟨nofun, fun ⟨s, reaches, _⟩ => nomatch reaches⟩
  | negate t ih =>
    constructor
    · intro run
      obtain ⟨e', run', eq⟩ | ⟨v, run', eq⟩ := eval_negate run
      · cases eq
        obtain ⟨s, reaches, ends⟩ := ih.1 run'
        exact ⟨s, .negated reaches, ends⟩
      · exact ⟨_, .negation run', eq.symm⟩
    · rintro ⟨s, reaches, ends⟩
      cases reaches with
      | negation run => rw [eval, run, ← ends]; rfl
      | negated reaches => rw [eval, ih.2 ⟨s, reaches, ends⟩]; rfl
  | not t ih =>
    rw [eval_not_error, ih]
    constructor
    · rintro ⟨s, reaches, ends⟩
      exact ⟨s, .denied reaches, ends⟩
    · rintro ⟨s, ⟨⟩ | ⟨⟩ | ⟨⟩ | ⟨⟩ | ⟨⟩ | ⟨reaches⟩, ends⟩
      exact ⟨s, reaches, ends⟩
  | both l r ihl ihr =>
    rw [eval_both_error, ihl, ihr]
    constructor
    · rintro (⟨s, reaches, ends⟩ | ⟨v, left, holds, s, reaches, ends⟩)
      · exact ⟨s, .both reaches, ends⟩
      · exact ⟨s, .bothRight left holds reaches, ends⟩
    · rintro ⟨s, reaches, ends⟩
      cases reaches with
      | both reaches => exact .inl ⟨s, reaches, ends⟩
      | bothRight left holds reaches => exact .inr ⟨_, left, holds, s, reaches, ends⟩
  | either l r ihl ihr =>
    rw [eval_either_error, ihl, ihr]
    constructor
    · rintro (⟨s, reaches, ends⟩ | ⟨v, left, fails, s, reaches, ends⟩)
      · exact ⟨s, .either reaches, ends⟩
      · exact ⟨s, .eitherRight left fails reaches, ends⟩
    · rintro ⟨s, reaches, ends⟩
      cases reaches with
      | either reaches => exact .inl ⟨s, reaches, ends⟩
      | eitherRight left fails reaches => exact .inr ⟨_, left, fails, s, reaches, ends⟩
  | binary op l r ihl ihr =>
    constructor
    · intro run
      obtain ⟨e', run', eq⟩ | ⟨v, e', left, run', eq⟩ | ⟨v, w, left, right, eq⟩ := eval_binary run
      · cases eq
        obtain ⟨s, reaches, ends⟩ := ihl.1 run'
        exact ⟨s, .left reaches, ends⟩
      · cases eq
        obtain ⟨s, reaches, ends⟩ := ihr.1 run'
        exact ⟨s, .right left reaches, ends⟩
      · exact ⟨_, .operation left right, eq.symm⟩
    · rintro ⟨s, reaches, ends⟩
      cases reaches with
      | operation left right => rw [eval, left, right, ← ends]; rfl
      | left reaches => rw [eval, ihl.2 ⟨s, reaches, ends⟩]; rfl
      | right left reaches => rw [eval, left, ihr.2 ⟨s, reaches, ends⟩]; rfl
  | choice c l r ihc ihl ihr =>
    rw [eval_choice_error, ihc, ihl, ihr]
    constructor
    · rintro (⟨s, reaches, ends⟩ | ⟨v, chosen, holds, s, reaches, ends⟩ |
        ⟨v, chosen, fails, s, reaches, ends⟩)
      · exact ⟨s, .condition reaches, ends⟩
      · exact ⟨s, .first chosen holds reaches, ends⟩
      · exact ⟨s, .second chosen fails reaches, ends⟩
    · rintro ⟨s, reaches, ends⟩
      cases reaches with
      | condition reaches => exact .inl ⟨s, reaches, ends⟩
      | first chosen holds reaches => exact .inr (.inl ⟨_, chosen, holds, s, reaches, ends⟩)
      | second chosen fails reaches => exact .inr (.inr ⟨_, chosen, fails, s, reaches, ends⟩)

end Term

/-! ## Integers of the range -/

/-- The value is no integer out of the range. -/
def Value.InRange : Value → Prop
  | .int i => IntegerRange.signed64.holds i = true
  | _ => True

/-- The term has no literal out of the range. -/
def Term.InRange : Term → Prop
  | .literal v => v.InRange
  | .negate t => t.InRange
  | .not t => t.InRange
  | .both l r => l.InRange ∧ r.InRange
  | .either l r => l.InRange ∧ r.InRange
  | .binary _ l r => l.InRange ∧ r.InRange
  | .choice c l r => c.InRange ∧ l.InRange ∧ r.InRange

/-- The values of the step are in the range. -/
def Step.InRange : Step → Prop
  | negation v => v.InRange
  | operation _ v w => v.InRange ∧ w.InRange

/-- A quotient leaves the range only for the least integer and minus one. -/
lemma holds_tdiv {a b : ℤ} (ha : IntegerRange.signed64.holds a = true)
    (other : ¬ (a = IntegerRange.signed64.least ∧ b = -1)) :
    IntegerRange.signed64.holds (a.tdiv b) = true := by
  rw [holds_iff] at ha ⊢
  change ¬ (a = -9223372036854775808 ∧ b = -1) at other
  have size := Int.natAbs_tdiv a b
  rcases Nat.lt_trichotomy b.natAbs 1 with zero | one | more
  · obtain rfl : b = 0 := by omega
    rw [Int.tdiv_zero]
    decide
  · obtain rfl | rfl : b = 1 ∨ b = -1 := by omega
    · rwa [Int.tdiv_one]
    · rw [Int.tdiv_neg, Int.tdiv_one]
      omega
  · have half : a.natAbs / b.natAbs ≤ a.natAbs / 2 := Nat.div_le_div_left more (by decide)
    change _ = a.natAbs / b.natAbs at size
    omega

/-- A remainder is as near to zero as the number, and on its side. -/
lemma holds_tmod {a : ℤ} (ha : IntegerRange.signed64.holds a = true) (b : ℤ) :
    IntegerRange.signed64.holds (a.tmod b) = true := by
  rw [holds_iff] at ha ⊢
  have size := Int.natAbs_tmod a b
  have smaller : a.natAbs % b.natAbs ≤ a.natAbs := Nat.mod_le _ _
  rcases Int.le_total 0 a with nonneg | nonpos
  · have side := Int.tmod_nonneg b nonneg
    omega
  · have side := Int.tmod_nonneg b (Int.neg_nonneg_of_nonpos nonpos)
    rw [Int.neg_tmod] at side
    omega

/-- The machine has a remainder of two integers unless they are the least one and minus one. -/
lemma remainder?_eq {a b : ℤ} (ha : IntegerRange.signed64.holds a = true) :
    remainder? a b =
      if a = IntegerRange.signed64.least ∧ b = -1 then none else some (a.tmod b) := by
  rw [remainder?]
  split
  case isTrue inside =>
    rw [if_neg]
    rintro ⟨rfl, rfl⟩
    revert inside
    decide
  case isFalse outside =>
    rw [if_pos]
    by_contra other
    exact outside (holds_tdiv ha other)

variable {v w u : Value} {op : Operator} {a b : ℤ}

/-- A checked integer is in the range. -/
lemma inRange_checked {i : ℤ} (h : checked i = .ok u) : u.InRange := by
  rw [checked] at h
  split at h
  case isTrue inside =>
    cases h
    exact inside
  case isFalse => cases h

/-- An operation on integers of the range yields no other integer. -/
lemma inRange_onInts {arithmetic : Arithmetic} (ha : IntegerRange.signed64.holds a = true)
    (h : arithmetic.onInts a b = .ok u) : u.InRange := by
  cases arithmetic with
  | sub | mul => exact inRange_checked h
  | div =>
    rw [Arithmetic.onInts] at h
    split at h
    · cases h
    · split at h
      · cases h
      · split at h
        · cases h
          exact trivial
        · exact inRange_checked h
  | rem =>
    rw [Arithmetic.onInts, remainder?_eq ha] at h
    split at h
    · cases h
    · by_cases extreme : a = IntegerRange.signed64.least ∧ b = -1
      · rw [if_pos extreme] at h
        cases h
      · rw [if_neg extreme] at h
        cases h
        exact holds_tmod ha b

/-- An operation on values of the range yields no integer out of it. -/
lemma inRange_arithmetic {arithmetic : Arithmetic} (hv : v.InRange)
    (h : arithmetic.apply v w = .ok u) : u.InRange := by
  unfold Arithmetic.apply at h
  split at h
  · exact inRange_onInts hv h
  · split at h
    · split at h
      · cases h
      · cases h
        exact trivial
    · cases h

/-- A sum is no integer out of the range. -/
lemma inRange_add : (v.add w).InRange := by
  unfold Value.add
  split
  · split
    case isTrue inside => exact inside
    case isFalse => exact trivial
  · split <;> exact trivial

/-- A negation is no integer out of the range. -/
lemma inRange_negate (hv : v.InRange) (h : v.negate = .ok u) : u.InRange := by
  cases v with
  | int i =>
    rw [Value.negate] at h
    split at h
    · cases h
    · rename_i other
      cases h
      change IntegerRange.signed64.holds _ = true at hv ⊢
      rw [holds_iff] at hv ⊢
      change ¬ i = -9223372036854775808 at other
      omega
  | float x =>
    cases h
    exact trivial
  | bool | text => cases h

/-- A step on values of the range yields no integer out of it. -/
lemma Step.InRange.outcome {s : Step} (h : s.InRange) (run : s.outcome = .ok u) : u.InRange := by
  match s with
  | negation v => exact inRange_negate h run
  | operation op v w =>
    cases op with
    | add =>
      cases run
      exact inRange_add
    | sub | mul | div | rem => exact inRange_arithmetic h.1 run
    | _ =>
      cases run
      exact trivial

/-- An evaluation of literals of the range yields no integer out of it. -/
lemma Term.InRange.value {t : Term} (h : t.InRange) {v : Value} (run : t.eval = .ok v) :
    v.InRange := by
  induction t generalizing v with
  | literal =>
    cases run
    exact h
  | negate t ih =>
    obtain ⟨e, -, eq⟩ | ⟨u, hu, eq⟩ := eval_negate run
    · cases eq
    · exact Step.InRange.outcome (s := .negation u) (ih h hu) eq.symm
  | binary op l r ihl ihr =>
    obtain ⟨e, -, eq⟩ | ⟨u, e, -, -, eq⟩ | ⟨u, w, hu, hw, eq⟩ := eval_binary run
    · cases eq
    · cases eq
    · exact Step.InRange.outcome (s := .operation op u w) ⟨ihl h.1 hu, ihr h.2 hw⟩ eq.symm
  | choice c l r ihc ihl ihr =>
    rw [eval] at run
    obtain ⟨u, -, run⟩ := bind_eq_ok run
    split at run
    · exact ihl h.2.1 run
    · exact ihr h.2.2 run
  | not t ih =>
    rw [eval] at run
    obtain ⟨u, -, eq⟩ := bind_eq_ok run
    cases eq
    exact trivial
  | both l r =>
    rw [eval] at run
    obtain ⟨u, -, run⟩ := bind_eq_ok run
    split at run
    · obtain ⟨w, -, eq⟩ := bind_eq_ok run
      cases eq
      exact trivial
    · cases run
      exact trivial
  | either l r =>
    rw [eval] at run
    obtain ⟨u, -, run⟩ := bind_eq_ok run
    split at run
    · cases run
      exact trivial
    · obtain ⟨w, -, eq⟩ := bind_eq_ok run
      cases eq
      exact trivial

/-- An evaluation of literals of the range gets to steps on values of the range. -/
lemma Term.InRange.step {t : Term} {s : Step} (h : t.InRange) (reaches : t.Reaches s) :
    s.InRange := by
  induction reaches with
  | @negation t _ run => exact Term.InRange.value (t := t) h run
  | operation left right => exact ⟨h.1.value left, h.2.value right⟩
  | negated _ ih | denied _ ih => exact ih h
  | left _ ih | both _ ih | either _ ih | condition _ ih => exact ih h.1
  | right _ _ ih | bothRight _ _ _ ih | eitherRight _ _ _ ih => exact ih h.2
  | first _ _ _ ih => exact ih h.2.1
  | second _ _ _ ih => exact ih h.2.2

/-- A word spells no integer out of the range. -/
lemma inRange_ofWord (word : String) : (Value.ofWord word).InRange := by
  unfold Value.ofWord
  dsimp only
  split
  · exact trivial
  · split
    · exact trivial
    · split
      case h_1 read =>
        split at read
        · exact holds_of_read read
        · cases read
      case h_2 => split <;> exact trivial

/-- An operator makes a term of the range of two of them. -/
lemma inRange_operator {l : Level} {mark : Token} {op : Term → Term → Term}
    (found : l.operator? mark = some op) {a b : Term} (ha : a.InRange) (hb : b.InRange) :
    (op a b).InRange := by
  cases mark <;> cases l <;> cases found <;> exact ⟨ha, hb⟩

mutual

/-- No tokens spell an integer out of the range. -/
lemma Phrase.inRange : {l : Level} → (p : Phrase l) → p.term.InRange
  | _, .chain _ first others => others.inRange first.inRange
  | _, .alone p => p.inRange
  | _, .compared _ _ found p q => inRange_operator found p.inRange q.inRange
  | _, .minus p => p.inRange
  | _, .bang p => p.inRange
  | _, .primary p => p.inRange
  | _, .word w => inRange_ofWord w
  | _, .quoted _ => trivial
  | _, .enclosed p => p.inRange
  | _, .choice c p q => ⟨c.inRange, p.inRange, q.inRange⟩

/-- A chain goes on from a term of the range to one. -/
lemma Chain.inRange : {l k : Level} → (c : Chain l k) → ∀ {left : Term}, left.InRange →
    (c.termFrom left).InRange
  | _, _, .done, _, h => h
  | _, _, .more _ _ found operand others, _, h =>
    others.inRange (inRange_operator found h operand.inRange)

end

/-! ## Panics -/

/-- The quotient of the least integer by minus one. -/
def Step.Panics : Step → Prop
  | operation .div (.int a) (.int b) => a = IntegerRange.signed64.least ∧ b = -1
  | _ => False

/-- The text spells a term whose evaluation gets to a step that panics. -/
def Panics (source : String) : Prop :=
  ∃ tokens t s, tokenize source.toList = .ok tokens ∧ Term.ofTokens tokens = .ok t ∧
    t.Reaches s ∧ s.Panics

/-- A check of the range does not panic. -/
lemma checked_ne_panics (i : ℤ) : checked i ≠ .error .panics := by
  rw [checked]
  split <;> nofun

/-- The quotient of integers panics exactly for the least one and minus one. -/
lemma onInts_div_panics_iff (ha : IntegerRange.signed64.holds a = true) :
    Arithmetic.div.onInts a b = .error .panics ↔
      a = IntegerRange.signed64.least ∧ b = -1 := by
  rw [Arithmetic.onInts, remainder?_eq ha]
  split
  case isTrue zero =>
    refine ⟨nofun, fun extreme => ?_⟩
    rw [extreme.2] at zero
    cases zero
  case isFalse =>
    by_cases extreme : a = IntegerRange.signed64.least ∧ b = -1
    · rw [if_pos extreme]
      exact ⟨fun _ => extreme, fun _ => rfl⟩
    · rw [if_neg extreme]
      refine ⟨fun h => absurd h ?_, fun h => absurd h extreme⟩
      dsimp only
      split
      · nofun
      · exact checked_ne_panics _

/-- No other operation on integers panics. -/
lemma onInts_ne_panics (arithmetic : Arithmetic) (other : arithmetic ≠ .div) :
    arithmetic.onInts a b ≠ .error .panics := by
  cases arithmetic with
  | sub | mul => exact checked_ne_panics _
  | div => exact absurd rfl other
  | rem =>
    rw [Arithmetic.onInts]
    split
    · nofun
    · split <;> nofun

/-- No operation on values that are not both integers panics. -/
lemma apply_ne_panics {arithmetic : Arithmetic} (mixed : ∀ a b, v = .int a → w ≠ .int b) :
    arithmetic.apply v w ≠ .error .panics := by
  unfold Arithmetic.apply
  split
  · exact absurd rfl (mixed _ _ rfl)
  · split
    · split <;> nofun
    · nofun

/-- A step on values of the range panics exactly if it is the quotient of the least integer by minus
one. -/
lemma Step.InRange.panics_iff {s : Step} (h : s.InRange) :
    s.outcome = .error .panics ↔ s.Panics := by
  match s with
  | negation v =>
    refine ⟨fun run => ?_, False.elim⟩
    rw [Step.outcome] at run
    unfold Value.negate at run
    split at run
    · split at run <;> cases run
    · cases run
    · cases run
  | operation op v w =>
    by_cases integers : ∃ a b, v = .int a ∧ w = .int b
    · obtain ⟨a, b, rfl, rfl⟩ := integers
      cases op with
      | div => exact onInts_div_panics_iff h.1
      | sub => exact ⟨fun run => absurd run (onInts_ne_panics .sub nofun), False.elim⟩
      | mul => exact ⟨fun run => absurd run (onInts_ne_panics .mul nofun), False.elim⟩
      | rem => exact ⟨fun run => absurd run (onInts_ne_panics .rem nofun), False.elim⟩
      | _ => exact ⟨nofun, False.elim⟩
    · have mixed : ∀ a b, v = .int a → w ≠ .int b := fun a b hv hw => integers ⟨a, b, hv, hw⟩
      have none : ¬ (operation op v w).Panics := by
        unfold Step.Panics
        split
        case h_1 eq =>
          cases eq
          exact absurd rfl (mixed _ _ rfl)
        case h_2 => exact id
      refine ⟨fun run => absurd run ?_, fun panics => absurd panics none⟩
      cases op with
      | sub | mul | div | rem => exact apply_ne_panics mixed
      | _ => nofun

/-- An evaluation panics exactly if it gets to the quotient of the least integer by minus one. -/
lemma evaluate_panics_iff {source : String} : evaluate source = .error .panics ↔ Panics source := by
  constructor
  · intro run
    rw [evaluate] at run
    split at run
    · cases run
    · cases run
    · rename_i tokens _ spelled
      split at run
      · cases run
      · rename_i t derived
        obtain ⟨p, rfl, rfl⟩ := exists_phrase derived
        obtain ⟨s, reaches, ends⟩ := Term.eval_error_iff.1 run
        exact ⟨_, _, s, spelled, derived, reaches, (p.inRange.step reaches).panics_iff.1 ends⟩
  · rintro ⟨tokens, t, s, spelled, derived, reaches, panics⟩
    rw [evaluate_eq spelled derived]
    obtain ⟨p, rfl, rfl⟩ := exists_phrase derived
    exact Term.eval_error_iff.2 ⟨s, reaches, (p.inRange.step reaches).panics_iff.2 panics⟩

end ConfTree.Expression
