import ConfTree.Proofs.Text.Blank
import ConfTree.Proofs.Text.Lowercase

/-!
# Texts in lower case

Every character of a lower-case form is `Small`: no run of the mapping moves it, since no run lands
on a code point that one of them moves (`clears_all`). So the lower case of a lower-case form is the
form itself (`lowercase_lowercase`). No character becomes blank, so the form of a trimmed text is as
good a name as the text (`lowName_lowercase`).
-/

namespace ConfTree.Text

/-! ## Where the runs land -/

namespace CaseRun

variable {r t : CaseRun} {n : Nat}

/-- The code point is one of those that the run moves. -/
def Moves (r : CaseRun) (n : Nat) : Prop := r.first ≤ n ∧ n ≤ r.last ∧ (n - r.first) % r.step = 0

instance (r : CaseRun) (n : Nat) : Decidable (r.Moves n) := inferInstanceAs (Decidable (_ ∧ _ ∧ _))

/-- Where the run moves a code point to. -/
def target (r : CaseRun) (n : Nat) : Nat := (n + r.shift).toNat

/-- The first run lands before the second one, behind it, or between its code points. -/
def clears (r t : CaseRun) : Bool :=
  Nat.blt (r.target r.last) t.first || Nat.blt t.last (r.target r.first) ||
    (t.step == 2 && (r.step == 2 || r.first == r.last) && (r.target r.first - t.first) % 2 == 1)

/-- A run that lands off another one moves nothing onto it. -/
lemma not_moves_target (clear : r.clears t = true) (h : r.Moves n) : ¬ t.Moves (r.target n) := by
  obtain ⟨low, high, step⟩ := h
  rintro ⟨low', high', step'⟩
  simp only [clears, Nat.blt_eq, Bool.or_eq_true, Bool.and_eq_true, beq_iff_eq] at clear
  simp only [target] at low' high' step' clear
  rcases clear with (before | behind) | ⟨⟨two, steps⟩, odd⟩
  · omega
  · omega
  · rw [two] at step'
    rcases steps with two' | single
    · rw [two'] at step
      omega
    · omega

end CaseRun

/-- The blanks, and the one character that becomes two. -/
def apartRuns : List CaseRun := [
  ⟨9, 13, 1, 0⟩, ⟨0x20, 0x20, 1, 0⟩, ⟨0x85, 0x85, 1, 0⟩, ⟨0xA0, 0xA0, 1, 0⟩, ⟨0x130, 0x130, 1, 0⟩,
  ⟨0x1680, 0x1680, 1, 0⟩, ⟨0x2000, 0x200A, 1, 0⟩, ⟨0x2028, 0x2029, 1, 0⟩, ⟨0x202F, 0x202F, 1, 0⟩,
  ⟨0x205F, 0x205F, 1, 0⟩, ⟨0x3000, 0x3000, 1, 0⟩]

/-- A blank is in one of these runs. -/
lemma moves_of_isBlank {c : Char} (h : isBlank c = true) : ∃ t ∈ apartRuns, t.Moves c.toNat := by
  simp only [isBlank, Bool.or_eq_true, Bool.and_eq_true, decide_eq_true_eq, beq_iff_eq] at h
  simp only [apartRuns, List.exists_mem_cons_iff, CaseRun.Moves, Nat.mod_one, and_true]
  omega

/-- No run lands on what a run moves, and none lands on a blank. -/
lemma clears_all :
    (lowercaseRuns.all fun r => (apartRuns ++ lowercaseRuns).all r.clears) = true := by
  decide +kernel

/-- One run is for ASCII letters, and the others are for what lies beyond ASCII. -/
lemma ascii_runs : ∀ r ∈ lowercaseRuns, r.first = 0x41 ∧ r.last = 0x5A ∨ 0x80 ≤ r.first := by
  decide +kernel

/-! ## Small characters -/

/-- Lower case leaves the character. -/
def Small (c : Char) : Prop := c.toNat ≠ 0x130 ∧ ∀ r ∈ lowercaseRuns, ¬ r.Moves c.toNat

instance (c : Char) : Decidable (Small c) := inferInstanceAs (Decidable (_ ∧ _))

variable {c d : Char} {before after cs : List Char}

/-- A small character is no capital sigma. -/
lemma Small.ne_sigma (h : Small c) : c.toNat ≠ 0x3A3 := by
  intro sigma
  have moved : ∃ r ∈ lowercaseRuns, r.Moves 0x3A3 := by decide +kernel
  obtain ⟨r, hr, moves⟩ := moved
  exact h.2 r hr (sigma ▸ moves)

/-- A small character stays when it is folded. -/
lemma Small.toLower (h : Small c) : c.toLower = c := by
  refine toLower_of_not_capital (decide_eq_false fun capital => ?_)
  have letters : (⟨0x41, 0x5A, 1, 32⟩ : CaseRun) ∈ lowercaseRuns := List.mem_cons_self
  exact h.2 _ letters ⟨capital.1, capital.2, Nat.mod_one _⟩

/-- A run moves the characters between its ends, in its steps. -/
lemma moves_iff {r : CaseRun} {n : Nat} :
    (decide (r.first ≤ n) && decide (n ≤ r.last) && (n - r.first) % r.step == 0) = true ↔
      r.Moves n := by
  simp [CaseRun.Moves, and_assoc]

/-- A small character is its own lower case. -/
lemma Small.lowerChar (h : Small c) : lowerChar c = [c] := by
  rw [Text.lowerChar]
  split
  · rw [h.toLower]
  · rw [if_neg h.1, List.find?_eq_none.2 fun r hr moved => h.2 r hr (moves_iff.1 moved)]

/-- Lower case of ASCII is small, and blank only where it was. -/
lemma small_toLower (ascii : c.toNat < 0x80) :
    Small c.toLower ∧ (isBlank c.toLower = true → isBlank c = true) := by
  have letters : ∀ n < 0x80, (Char.ofNat n).toLower.toNat < 0x80 ∧
      isCapital (Char.ofNat n).toLower = false ∧
      (isBlank (Char.ofNat n).toLower = true → isBlank (Char.ofNat n) = true) := by
    decide +kernel
  obtain ⟨small, free, blank⟩ := letters c.toNat ascii
  rw [Char.ofNat_toNat] at small free blank
  refine ⟨⟨by omega, fun r hr moved => ?_⟩, blank⟩
  obtain ⟨low, high, -⟩ := moved
  rw [isCapital, decide_eq_false_iff_not] at free
  rcases ascii_runs r hr with ⟨first, last⟩ | beyond
  · exact free ⟨first ▸ low, last ▸ high⟩
  · omega

/-- What a run makes of a character is small and not blank. -/
lemma small_target {r : CaseRun} {n : Nat} (hr : r ∈ lowercaseRuns) (moves : r.Moves n) :
    Small (Char.ofNat (r.target n)) ∧ isBlank (Char.ofNat (r.target n)) = false := by
  have apart : ∀ t ∈ apartRuns ++ lowercaseRuns, ¬ t.Moves (Char.ofNat (r.target n)).toNat := by
    intro t ht
    by_cases valid : (r.target n).isValidChar
    · have same : (Char.ofNat (r.target n)).toNat = r.target n := by
        rw [Char.ofNat, dif_pos valid]
        rfl
      rw [same]
      exact CaseRun.not_moves_target (List.all_eq_true.1 (List.all_eq_true.1 clears_all r hr) t ht)
        moves
    · -- What is no code point is replaced by 0, which no run moves.
      have zero : (Char.ofNat (r.target n)).toNat = 0 := by
        rw [Char.ofNat, dif_neg valid]
        rfl
      have positive : ∀ t ∈ apartRuns ++ lowercaseRuns, 0 < t.first := by decide +kernel
      rw [zero]
      exact fun moved => absurd moved.1 (Nat.not_le.2 (positive t ht))
  refine ⟨⟨fun dotted => ?_, fun t ht => apart t (List.mem_append_right _ ht)⟩, ?_⟩
  · exact apart ⟨0x130, 0x130, 1, 0⟩ (by simp [apartRuns]) (by rw [dotted]; decide)
  · refine Bool.eq_false_iff.2 fun blank => ?_
    obtain ⟨t, ht, moved⟩ := moves_of_isBlank blank
    exact apart t (List.mem_append_left _ ht) moved

/-- Lower case turns a character into small ones, and no character into a blank. -/
lemma small_of_mem_lowerChar (h : d ∈ lowerChar c) :
    Small d ∧ (isBlank d = true → isBlank c = true) := by
  have solid : ∀ {d : Char}, Small d ∧ isBlank d = false →
      Small d ∧ (isBlank d = true → isBlank c = true) := by
    rintro d ⟨small, solid⟩
    exact ⟨small, fun blank => absurd blank (Bool.eq_false_iff.1 solid)⟩
  rw [lowerChar] at h
  split at h
  case isTrue ascii =>
    obtain rfl := List.mem_singleton.1 h
    exact small_toLower ascii
  case isFalse =>
    split at h
    case isTrue =>
      rcases List.mem_pair.1 h with rfl | rfl
      · exact solid (by decide +kernel)
      · exact solid (by decide +kernel)
    case isFalse other =>
      cases found : lowercaseRuns.find? fun r =>
          decide (r.first ≤ c.toNat) && decide (c.toNat ≤ r.last) &&
            (c.toNat - r.first) % r.step == 0 with
      | some r =>
        rw [found] at h
        obtain rfl := List.mem_singleton.1 h
        have moved := List.find?_some found
        exact solid (small_target (List.mem_of_find?_eq_some found) (moves_iff.1 moved))
      | none =>
        rw [found] at h
        obtain rfl := List.mem_singleton.1 h
        exact ⟨⟨other, fun r hr moves => List.find?_eq_none.1 found r hr (moves_iff.2 moves)⟩, id⟩

/-- The lower case of a character is not empty. -/
lemma lowerChar_ne_nil (c : Char) : lowerChar c ≠ [] := by
  rw [lowerChar]
  repeat' split
  all_goals simp

/-! ## Small texts -/

/-- The lower-case form goes through a text character by character. -/
lemma lowerAfter_cons (before : List Char) (c : Char) (after : List Char) :
    ∃ lowered ≠ [], (∀ d ∈ lowered, Small d ∧ (isBlank d = true → isBlank c = true)) ∧
      lowerAfter before (c :: after) = lowered ++ lowerAfter (c :: before) after := by
  have sigma : ∀ s : Char, Small s ∧ isBlank s = false → ∀ d ∈ [s],
      Small d ∧ (isBlank d = true → isBlank c = true) := by
    rintro s ⟨small, solid⟩ d hd
    obtain rfl := List.mem_singleton.1 hd
    exact ⟨small, fun blank => absurd blank (Bool.eq_false_iff.1 solid)⟩
  refine ⟨_, ?_, ?_, rfl⟩
  · repeat' split
    · simp
    · simp
    · exact lowerChar_ne_nil c
  · repeat' split
    · exact sigma _ (by decide +kernel)
    · exact sigma _ (by decide +kernel)
    · exact fun d hd => small_of_mem_lowerChar hd

/-- All characters of a lower-case form are small. -/
lemma small_of_mem_lowerAfter (h : d ∈ lowerAfter before cs) : Small d := by
  induction cs generalizing before with
  | nil => cases h
  | cons c cs ih =>
    obtain ⟨lowered, -, small, run⟩ := lowerAfter_cons before c cs
    rw [run] at h
    rcases List.mem_append.1 h with h | h
    · exact (small d h).1
    · exact ih h

/-- Lower case leaves a text of small characters. -/
lemma lowerAfter_of_small (h : ∀ c ∈ cs, Small c) : lowerAfter before cs = cs := by
  induction cs generalizing before with
  | nil => rfl
  | cons c cs ih =>
    obtain ⟨small, rest⟩ := List.forall_mem_cons.1 h
    rw [lowerAfter, if_neg small.ne_sigma, small.lowerChar, ih rest]
    rfl

/-- Only the empty text is empty in lower case. -/
lemma lowerAfter_eq_nil : lowerAfter before cs = [] ↔ cs = [] := by
  constructor
  · intro none
    cases cs with
    | nil => rfl
    | cons c cs =>
      obtain ⟨lowered, some, -, run⟩ := lowerAfter_cons before c cs
      rw [run, List.append_eq_nil_iff] at none
      exact absurd none.1 some
  · rintro rfl
    rfl

/-- The lower-case form of a tight text is tight. -/
lemma Tight.lowerAfter (h : Tight cs) : Tight (lowerAfter before cs) := by
  constructor
  · intro d hd
    cases cs with
    | nil => cases hd
    | cons c cs =>
      obtain ⟨lowered, some, small, run⟩ := lowerAfter_cons before c cs
      rw [run, List.head?_append_of_ne_nil _ some] at hd
      refine Bool.eq_false_iff.2 fun blank => ?_
      exact absurd ((small d (List.mem_of_mem_head? hd)).2 blank) (Bool.eq_false_iff.1 (h.1 c rfl))
  · -- The last character of the form comes from the last one of the text.
    have last := h.2
    clear h
    induction cs generalizing before with
    | nil =>
      intro d hd
      cases hd
    | cons c cs ih =>
      intro d hd
      obtain ⟨lowered, some, small, run⟩ := lowerAfter_cons before c cs
      rw [run] at hd
      cases cs with
      | nil =>
        rw [Text.lowerAfter, List.append_nil] at hd
        refine Bool.eq_false_iff.2 fun blank => ?_
        exact absurd ((small d (List.mem_of_getLast? hd)).2 blank)
          (Bool.eq_false_iff.1 (last c rfl))
      | cons c' cs =>
        have more : Text.lowerAfter (c :: before) (c' :: cs) ≠ [] :=
          mt lowerAfter_eq_nil.1 (List.cons_ne_nil c' cs)
        rw [List.getLast?_append_of_ne_nil _ more] at hd
        exact ih (fun d hd => last d (by rwa [List.getLast?_cons_cons])) d hd

/-! ## Names in lower case -/

/-- Lower case is the lower case of itself. -/
lemma lowercase_lowercase (s : String) : lowercase (lowercase s) = lowercase s := by
  rw [lowercase, lowercase, String.toList_ofList,
    lowerAfter_of_small fun c hc => small_of_mem_lowerAfter hc]

/-- A name that is its own lower-case form. -/
structure LowName (name : String) : Prop where
  good : GoodName name
  lower : lowercase name = name

/-- Low names agree only if they are the same. -/
lemma LowName.eq_of_sameName {a b : String} (ha : LowName a) (hb : LowName b)
    (h : sameName a b = true) : a = b := by
  rw [← ha.lower, ← hb.lower, lowercase_of_sameName h]

/-- The lower-case form of a trimmed text is a low name, if there is anything of the text. -/
lemma lowName_lowercase (h : trimChars cs ≠ []) :
    LowName (lowercase (String.ofList (trimChars cs))) := by
  refine ⟨⟨fun none => h ?_, ?_⟩, lowercase_lowercase _⟩
  · rw [lowercase, String.toList_ofList] at none
    exact lowerAfter_eq_nil.1 (String.ofList_injective none)
  · rw [trim, lowercase, String.toList_ofList, String.toList_ofList,
      (tight_trimChars cs).lowerAfter.trimChars_eq]

end ConfTree.Text
