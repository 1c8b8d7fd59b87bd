import ConfTree.Decimal.Binary64
import Mathlib.Algebra.Group.Nat.Defs
import Mathlib.Tactic.Lemma

/-!
# Rounding of integers to doubles

An integer is rounded to a multiple of the power of two that leaves 53 bits of it. Rounding keeps
the order of integers (`nearestInt_mono`), and it keeps the integers of up to 53 bits as they are
(`nearestInt_eq`). An integer of 64 bits is moved by 512 at most (`nearestInt_near`).
-/

namespace ConfTree.Decimal

variable {a b d k n m : Nat}

/-! ## Quotients -/

/-- A rounded quotient is the quotient, or the next number if the remainder is half the divisor or
more. -/
lemma roundDiv_cases (a d : Nat) :
    roundDiv a d = a / d ∧ 2 * (a % d) ≤ d ∨ roundDiv a d = a / d + 1 ∧ d ≤ 2 * (a % d) := by
  rw [roundDiv]
  split
  case isTrue above =>
    rw [Bool.or_eq_true, Bool.and_eq_true, decide_eq_true_eq, decide_eq_true_eq] at above
    exact .inr ⟨rfl, by omega⟩
  case isFalse below =>
    rw [Bool.or_eq_true, Bool.and_eq_true, decide_eq_true_eq, decide_eq_true_eq] at below
    exact .inl ⟨rfl, by omega⟩

/-- A larger numerator gives no smaller rounded quotient. -/
lemma roundDiv_mono (h : a ≤ b) (d : Nat) : roundDiv a d ≤ roundDiv b d := by
  have quotients : a / d ≤ b / d := Nat.div_le_div_right h
  rcases Nat.lt_or_eq_of_le quotients with less | same
  · have := roundDiv_cases a d
    have := roundDiv_cases b d
    omega
  · -- With one quotient the remainders are in order, and so is the side that they are rounded to.
    have left := Nat.div_add_mod a d
    have right := Nat.div_add_mod b d
    rw [same] at left
    have remainders : a % d ≤ b % d := by omega
    simp only [roundDiv, same, Bool.or_eq_true, Bool.and_eq_true, decide_eq_true_eq]
    split <;> split <;> omega

/-- A multiple of the divisor is divided without rounding. -/
lemma roundDiv_mul (k : Nat) (h : 0 < d) : roundDiv (k * d) d = k := by
  have := roundDiv_cases (k * d) d
  rw [Nat.mul_div_cancel k h, Nat.mul_mod_left] at this
  omega

/-- A rounded quotient is off by half a divisor at most. -/
lemma roundDiv_near (a : Nat) (h : 0 < d) :
    2 * (roundDiv a d * d) ≤ 2 * a + d ∧ 2 * a ≤ 2 * (roundDiv a d * d) + d := by
  have whole := Nat.div_add_mod' a d
  rcases roundDiv_cases a d with ⟨eq, below⟩ | ⟨eq, above⟩
  · rw [eq]
    omega
  · rw [eq, Nat.add_mul, Nat.one_mul]
    have := Nat.mod_lt a h
    omega

/-! ## Natural numbers -/

/-- A number rounded to 53 bits. -/
def nearestNat (n : Nat) : Nat := roundDiv n (twoTo (n.log2 - 52)) * twoTo (n.log2 - 52)

/-- Powers of two are those of the library. -/
lemma twoTo_eq (n : Nat) : twoTo n = 2 ^ n := rfl

/-- Powers of two are positive. -/
lemma twoTo_pos (n : Nat) : 0 < twoTo n := Nat.two_pow_pos n

/-- Zero is a float. -/
lemma nearestNat_zero : nearestNat 0 = 0 := by decide

/-- A power of two is a multiple of a smaller one. -/
lemma roundDiv_twoTo (h : m ≤ k) : roundDiv (2 ^ k) (twoTo m) * twoTo m = 2 ^ k := by
  have split : 2 ^ k = 2 ^ (k - m) * twoTo m := by
    rw [twoTo_eq, ← Nat.pow_add]
    congr 1
    omega
  rw [split, roundDiv_mul _ (twoTo_pos m)]

/-- Rounding does not pass the next power of two. -/
lemma nearestNat_le (n : Nat) : nearestNat n ≤ 2 ^ (n.log2 + 1) := by
  have below : n ≤ 2 ^ (n.log2 + 1) := Nat.le_of_lt Nat.lt_log2_self
  have powers := roundDiv_twoTo (show n.log2 - 52 ≤ n.log2 + 1 by omega)
  rw [← powers]
  exact Nat.mul_le_mul_right _ (roundDiv_mono below _)

/-- Rounding does not pass the power of two below. -/
lemma le_nearestNat (h : n ≠ 0) : 2 ^ n.log2 ≤ nearestNat n := by
  have powers := roundDiv_twoTo (show n.log2 - 52 ≤ n.log2 by omega)
  rw [← powers]
  exact Nat.mul_le_mul_right _ (roundDiv_mono (Nat.log2_self_le h) _)

/-- A larger number has no smaller nearest float. -/
lemma nearestNat_mono (h : n ≤ m) : nearestNat n ≤ nearestNat m := by
  by_cases zero : n = 0
  · subst zero
    rw [nearestNat_zero]
    exact Nat.zero_le _
  · have nonzero : m ≠ 0 := by omega
    have bits : n.log2 ≤ m.log2 :=
      (Nat.le_log2 nonzero).2 (Nat.le_trans (Nat.log2_self_le zero) h)
    rcases Nat.lt_or_eq_of_le bits with less | same
    · -- A power of two stands between the numbers.
      exact Nat.le_trans (nearestNat_le n) (Nat.le_trans (Nat.pow_le_pow_right (by decide) less)
        (le_nearestNat nonzero))
    · rw [nearestNat, nearestNat, same]
      exact Nat.mul_le_mul_right _ (roundDiv_mono h _)

/-- A number of up to 53 bits, or the next one, is kept. -/
lemma nearestNat_eq (h : n ≤ 2 ^ 53) : nearestNat n = n := by
  rcases Nat.lt_or_eq_of_le h with less | rfl
  · have excess : n.log2 - 52 = 0 := by
      by_cases zero : n = 0
      · subst zero
        rfl
      · have bits := (Nat.log2_lt zero).2 less
        omega
    have one := roundDiv_mul n Nat.one_pos
    rw [Nat.mul_one] at one
    rw [nearestNat, excess, show twoTo 0 = 1 from rfl, one, Nat.mul_one]
  · decide +kernel

/-- A number of 63 bits is moved by 512 at most. -/
lemma nearestNat_near (h : n ≤ 2 ^ 63) : nearestNat n ≤ n + 512 ∧ n ≤ nearestNat n + 512 := by
  rcases Nat.lt_or_eq_of_le h with less | rfl
  · by_cases zero : n = 0
    · subst zero
      decide
    · have bits := (Nat.log2_lt zero).2 less
      have step : twoTo (n.log2 - 52) ≤ 2 ^ 10 := Nat.pow_le_pow_right (by decide) (by omega)
      have near := roundDiv_near n (twoTo_pos (n.log2 - 52))
      rw [← nearestNat] at near
      omega
  · decide +kernel

/-! ## Integers -/

variable {i j : Int}

/-- The nearest float of a natural number. -/
lemma nearestInt_natCast (n : Nat) : nearestInt n = nearestNat n := by
  have sign : ¬ (n : Int) < 0 := by omega
  simp only [nearestInt, if_neg sign, Int.natAbs_natCast, nearestNat]

/-- The nearest float of the opposite is the opposite of the nearest float. -/
lemma nearestInt_neg (i : Int) : nearestInt (-i) = -nearestInt i := by
  simp only [nearestInt, Int.natAbs_neg]
  rcases Int.lt_trichotomy i 0 with neg | rfl | pos
  · rw [if_neg (by omega), if_pos neg, Int.neg_neg]
  · rfl
  · rw [if_pos (by omega), if_neg (by omega)]

/-- A larger integer has no smaller nearest float. -/
lemma nearestInt_mono (h : i ≤ j) : nearestInt i ≤ nearestInt j := by
  obtain ⟨n, rfl | rfl⟩ := i.eq_nat_or_neg <;> obtain ⟨m, rfl | rfl⟩ := j.eq_nat_or_neg
  all_goals simp only [nearestInt_neg, nearestInt_natCast]
  · have := nearestNat_mono (show n ≤ m by omega)
    omega
  · obtain ⟨rfl, rfl⟩ : n = 0 ∧ m = 0 := by omega
    rw [nearestNat_zero]
    omega
  · omega
  · have := nearestNat_mono (show m ≤ n by omega)
    omega

/-- An integer of up to 53 bits, or the next one, is kept. -/
lemma nearestInt_eq (h : i.natAbs ≤ 2 ^ 53) : nearestInt i = i := by
  obtain ⟨n, rfl | rfl⟩ := i.eq_nat_or_neg
  · rw [nearestInt_natCast, nearestNat_eq (by omega)]
  · rw [nearestInt_neg, nearestInt_natCast, nearestNat_eq (by omega)]

/-- An integer of 64 bits is moved by 512 at most. -/
lemma nearestInt_near (h : i.natAbs ≤ 2 ^ 63) : (nearestInt i - i).natAbs ≤ 512 := by
  obtain ⟨n, rfl | rfl⟩ := i.eq_nat_or_neg
  · rw [nearestInt_natCast]
    have := nearestNat_near (show n ≤ 2 ^ 63 by omega)
    omega
  · rw [nearestInt_neg, nearestInt_natCast]
    have := nearestNat_near (show n ≤ 2 ^ 63 by omega)
    omega

/-- No other integer is rounded to an integer of less than 53 bits. -/
lemma nearestInt_injective (h : i.natAbs < 2 ^ 53) (same : nearestInt i = nearestInt j) :
    i = j := by
  rw [nearestInt_eq (Nat.le_of_lt h)] at same
  by_cases small : j.natAbs ≤ 2 ^ 53
  · rw [same, nearestInt_eq small]
  · have bound : nearestInt (2 ^ 53 : Nat) = (2 ^ 53 : Nat) := nearestInt_eq (Nat.le_refl _)
    rcases Int.le_total 0 j with nonneg | nonpos
    · have above := nearestInt_mono (show ((2 ^ 53 : Nat) : Int) ≤ j by omega)
      omega
    · have below := nearestInt_mono (show j ≤ -((2 ^ 53 : Nat) : Int) by omega)
      rw [nearestInt_neg] at below
      omega

end ConfTree.Decimal
