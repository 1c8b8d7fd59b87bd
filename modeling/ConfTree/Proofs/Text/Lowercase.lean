import ConfTree.Text.Folding
import ConfTree.Text.Lowercase
import Mathlib.Tactic.Lemma

/-!
# Lower case of folded texts

The lower-case form of a text does not depend on the case of its ASCII letters: a small letter is as
cased as its capital, so a capital sigma ends the one text as it ends the other. Texts that agree
but for the case of ASCII letters have one lower-case form (`lowercase_of_sameName`).
-/

namespace ConfTree.Text

/-- A capital ASCII letter. -/
def isCapital (c : Char) : Bool := decide (0x41 ≤ c.toNat ∧ c.toNat ≤ 0x5A)

/-- Folding changes capital letters only. -/
lemma toLower_of_not_capital {c : Char} (h : isCapital c = false) : c.toLower = c := by
  unfold Char.toLower
  rw [dif_neg]
  rintro ⟨low, high⟩
  rw [isCapital, decide_eq_false_iff_not] at h
  exact h ⟨UInt32.le_iff_toNat_le.1 low, UInt32.le_iff_toNat_le.1 high⟩

/-- What folding leaves of every capital letter, it leaves of every character. -/
lemma apply_toLower {α : Type} {f : Char → α}
    (h : ∀ n < 26, f (Char.ofNat (0x41 + n)).toLower = f (Char.ofNat (0x41 + n))) (c : Char) :
    f c.toLower = f c := by
  cases capital : isCapital c with
  | false => rw [toLower_of_not_capital capital]
  | true =>
    rw [isCapital, decide_eq_true_eq] at capital
    have letter : c = Char.ofNat (0x41 + (c.toNat - 0x41)) := by
      rw [Nat.add_sub_cancel' capital.1, Char.ofNat_toNat]
    rw [letter]
    exact h _ (by omega)

/-- A small letter is as cased as its capital. -/
lemma cased_toLower : ∀ c : Char, cased.contains c.toLower = cased.contains c :=
  apply_toLower (by decide +kernel)

/-- Folding a character keeps whether it is ignored between cased ones. -/
lemma caseIgnorable_toLower :
    ∀ c : Char, caseIgnorable.contains c.toLower = caseIgnorable.contains c :=
  apply_toLower (by decide +kernel)

/-- A character and its folding have the same lower case. -/
lemma lowerChar_toLower : ∀ c : Char, lowerChar c.toLower = lowerChar c :=
  apply_toLower (by decide +kernel)

/-- To fold a character twice is to fold it once. -/
lemma toLower_toLower : ∀ c : Char, c.toLower.toLower = c.toLower :=
  apply_toLower (by decide +kernel)

/-- A sigma is no ASCII letter. -/
lemma isSigma_toLower (c : Char) : decide (c.toLower.toNat = 0x3A3) = decide (c.toNat = 0x3A3) := by
  have sigma : ∀ n < 26, decide ((Char.ofNat (0x41 + n)).toLower.toNat = 0x3A3) =
      decide ((Char.ofNat (0x41 + n)).toNat = 0x3A3) := by
    decide +kernel
  exact apply_toLower (f := fun c => decide (c.toNat = 0x3A3)) sigma c

/-- Folding keeps whether a cased character comes next. -/
lemma startsCased_foldChars (cs : List Char) : startsCased (foldChars cs) = startsCased cs := by
  induction cs with
  | nil => rfl
  | cons c cs ih =>
    rw [startsCased, startsCased] at ih ⊢
    rw [foldChars, List.map_cons, List.dropWhile_cons, List.dropWhile_cons, caseIgnorable_toLower]
    cases caseIgnorable.contains c with
    | true => exact ih
    | false => exact cased_toLower c

/-- Folding a text and what stands in front of it leaves its lower-case form. -/
lemma lowerAfter_foldChars (before cs : List Char) :
    lowerAfter (foldChars before) (foldChars cs) = lowerAfter before cs := by
  induction cs generalizing before with
  | nil => rfl
  | cons c cs ih =>
    have sigma : (c.toLower.toNat = 0x3A3) = (c.toNat = 0x3A3) :=
      propext (decide_eq_decide.1 (isSigma_toLower c))
    have rest : lowerAfter (c.toLower :: foldChars before) (foldChars cs) =
        lowerAfter (c :: before) cs := ih (c :: before)
    rw [show foldChars (c :: cs) = c.toLower :: foldChars cs from rfl, lowerAfter, lowerAfter, rest]
    simp only [sigma, lowerChar_toLower, startsCased_foldChars]

/-- Texts that agree but for the case of ASCII letters have one lower-case form. -/
lemma lowercase_of_sameName {a b : String} (h : sameName a b = true) :
    lowercase a = lowercase b := by
  rw [lowercase, lowercase, ← lowerAfter_foldChars [] a.toList, ← lowerAfter_foldChars [] b.toList,
    sameName_iff.1 h]

/-- Names agree exactly when they are equal after folding. -/
lemma fold_eq_iff {a b : String} : fold a = fold b ↔ sameName a b = true := by
  rw [fold, fold, String.ofList_inj, sameName_iff]

/-- A folded name agrees with the name. -/
lemma sameName_fold (a : String) : sameName (fold a) a = true := by
  rw [sameName_iff, fold, String.toList_ofList, foldChars, foldChars, List.map_map]
  exact List.map_congr_left fun c _ => toLower_toLower c

/-- A text and its folding have the same lower case. -/
lemma lowercase_fold (a : String) : lowercase (fold a) = lowercase a :=
  lowercase_of_sameName (sameName_fold a)

end ConfTree.Text
