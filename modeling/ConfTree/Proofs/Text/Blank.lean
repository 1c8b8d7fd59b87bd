import ConfTree.Text.Blank
import Mathlib.Data.List.DropRight

/-!
# Trimmed texts

A text is `Tight` if no blank stands at either end. Trimming makes a text tight and leaves a tight
text alone, so trimming twice is trimming once. It takes off what blanks a text is `Padded` with. A
text is also cut at the first place where a character stands (`takeWhile_ne`).
-/

namespace ConfTree.Text

variable {cs : List Char}

/-- No blank stands at an end of the text. -/
def Tight (cs : List Char) : Prop :=
  (∀ c ∈ cs.head?, isBlank c = false) ∧ ∀ c ∈ cs.getLast?, isBlank c = false

/-- A text without blanks is tight. -/
lemma tight_of_solid (h : ∀ c ∈ cs, isBlank c = false) : Tight cs :=
  ⟨fun c hc => h c (List.mem_of_head? hc), fun c hc => h c (List.mem_of_getLast? hc)⟩

/-- A text that does not start with a blank is not trimmed in front. -/
lemma trimFront_eq_self (h : ∀ c ∈ cs.head?, isBlank c = false) : trimFront cs = cs := by
  cases cs with
  | nil => rfl
  | cons c cs =>
    have hc := h c rfl
    rw [trimFront, List.dropWhile_cons_of_neg (by simp [hc])]

/-- A text that does not end with a blank is not trimmed at its end. -/
lemma trimBack_eq_self (h : ∀ c ∈ cs.getLast?, isBlank c = false) : trimBack cs = cs := by
  refine List.rdropWhile_eq_self_iff.2 fun hl => ?_
  have hc := h (cs.getLast hl) (List.getLast?_eq_getLast_of_ne_nil hl)
  simp [hc]

/-- A tight text stays as it is. -/
lemma Tight.trimChars_eq (h : Tight cs) : trimChars cs = cs := by
  rw [trimChars, trimFront_eq_self h.1, trimBack_eq_self h.2]

/-- A text trimmed at its end does not end in a blank. -/
lemma getLast?_trimBack (cs : List Char) : ∀ c ∈ (trimBack cs).getLast?, isBlank c = false := by
  intro c hc
  obtain ⟨hl, rfl⟩ := List.mem_getLast?_eq_getLast hc
  exact Bool.eq_false_iff.2 (List.rdropWhile_last_not isBlank cs hl)

/-- A text trimmed at its end is the text up to blanks. -/
lemma trimBack_append (cs : List Char) :
    ∃ after, (∀ c ∈ after, isBlank c = true) ∧ trimBack cs ++ after = cs := by
  refine ⟨(cs.reverse.takeWhile isBlank).reverse, ?_, ?_⟩
  · exact fun c hc => List.mem_takeWhile_imp (List.mem_reverse.1 hc)
  · rw [trimBack, ← List.reverse_append, List.takeWhile_append_dropWhile, List.reverse_reverse]

/-- What is left of a trimmed text is tight. -/
lemma tight_trimChars (cs : List Char) : Tight (trimChars cs) := by
  have hback := getLast?_trimBack (trimFront cs)
  have hpre : trimChars cs <+: trimFront cs := List.rdropWhile_prefix isBlank _
  refine ⟨?_, hback⟩
  intro c hc
  -- The first character is that of the text trimmed at its front.
  have hf : (trimFront cs).head? = some c := by
    obtain ⟨t, ht⟩ := hpre
    rw [← ht, List.head?_append, Option.mem_def.1 hc]
    rfl
  have := List.head?_dropWhile_not isBlank cs
  rw [show cs.dropWhile isBlank = trimFront cs from rfl, hf] at this
  simpa using this

/-- To trim twice is to trim once. -/
@[simp]
lemma trim_trim (s : String) : trim (trim s) = trim s := by
  simp only [trim, String.toList_ofList]
  rw [(tight_trimChars s.toList).trimChars_eq]

/-- A tight text is not trimmed. -/
lemma trim_of_tight {s : String} (h : Tight s.toList) : trim s = s := by
  rw [trim, h.trimChars_eq, String.ofList_toList]

/-- A text that trimming leaves alone is tight. -/
lemma tight_of_trim_eq {s : String} (h : trim s = s) : Tight s.toList := by
  rw [← h, trim, String.toList_ofList]
  exact tight_trimChars s.toList

/-! ## Blanks around a text -/

/-- The second text is the first one with blanks around it. -/
def Padded (cs padded : List Char) : Prop :=
  ∃ before after, (∀ c ∈ before, isBlank c = true) ∧ (∀ c ∈ after, isBlank c = true) ∧
    padded = before ++ (cs ++ after)

/-- A text is padded with nothing. -/
lemma Padded.refl (cs : List Char) : Padded cs cs := ⟨[], [], by simp, by simp, by simp⟩

/-- A text is what trimming leaves of it, with the blanks that were taken off. -/
lemma padded_trimChars (cs : List Char) : Padded (trimChars cs) cs := by
  have front : cs.takeWhile isBlank ++ trimFront cs = cs := List.takeWhile_append_dropWhile
  obtain ⟨after, blank, back⟩ := trimBack_append (trimFront cs)
  refine ⟨cs.takeWhile isBlank, after, fun c hc => List.mem_takeWhile_imp hc, blank, ?_⟩
  rw [trimChars, back, front]

/-- Blanks around a text do not count when it is trimmed. -/
lemma Padded.trimChars_eq {padded : List Char} (h : Padded cs padded) :
    trimChars padded = trimChars cs := by
  obtain ⟨before, after, hb, ha, rfl⟩ := h
  have front : trimFront (before ++ (cs ++ after)) = trimFront (cs ++ after) :=
    List.dropWhile_append_of_pos hb
  have none : after.dropWhile isBlank = [] := List.dropWhile_eq_nil_iff.2 ha
  have none' : after.reverse.dropWhile isBlank = [] :=
    List.dropWhile_eq_nil_iff.2 fun c hc => ha c (List.mem_reverse.1 hc)
  rw [trimChars, front, trimFront, List.dropWhile_append]
  split
  · rename_i blank
    rw [none, trimChars, trimFront, List.isEmpty_iff.1 blank]
  · rw [trimBack, List.reverse_append, List.dropWhile_append, none']
    rfl

/-- Trimming goes up to the first character that is not blank. -/
lemma head?_trimChars {before : List Char} (blank : ∀ c ∈ before, isBlank c = true) {c : Char}
    (solid : isBlank c = false) (rest : List Char) :
    (trimChars (before ++ c :: rest)).head? = some c := by
  have front : trimFront (before ++ c :: rest) = c :: rest := by
    rw [trimFront, List.dropWhile_append_of_pos blank, List.dropWhile_cons_of_neg (by simp [solid])]
  have last : [c].dropWhile isBlank = [c] := List.dropWhile_cons_of_neg (by simp [solid])
  rw [trimChars, front, trimBack, List.reverse_cons, List.dropWhile_append, last]
  split <;> simp

/-- A first character that is not blank stays. -/
lemma head?_trimChars_cons {c : Char} (solid : isBlank c = false) (rest : List Char) :
    (trimChars (c :: rest)).head? = some c := by
  have trimmed : (trimChars ([] ++ c :: rest)).head? = some c :=
    head?_trimChars (by simp) solid rest
  exact trimmed

/-- The first character of a trimmed text does not depend on what comes behind the text. -/
lemma head?_trimChars_append {c : Char} (h : (trimChars cs).head? = some c) (rest : List Char) :
    (trimChars (cs ++ rest)).head? = some c := by
  have solid : isBlank c = false := (tight_trimChars cs).1 c h
  obtain ⟨tail, trimmed⟩ := List.head?_eq_some_iff.1 h
  obtain ⟨before, after, hb, -, e⟩ := padded_trimChars cs
  rw [trimmed] at e
  rw [e, List.append_assoc, List.cons_append, List.cons_append]
  exact head?_trimChars hb solid _

/-! ## Up to a character -/

/-- A text is cut where a character stands that is not in front of this place. -/
lemma takeWhile_ne {c : Char} (free : c ∉ cs) (rest : List Char) :
    (cs ++ c :: rest).takeWhile (· != c) = cs ∧
      (cs ++ c :: rest).dropWhile (· != c) = c :: rest := by
  have pass : ∀ d ∈ cs, (d != c) = true := by
    intro d hd
    rw [bne_iff_ne]
    rintro rfl
    exact free hd
  rw [List.takeWhile_append_of_pos pass, List.dropWhile_append_of_pos pass]
  simp

end ConfTree.Text

/-- The name can be stored in a node as it is: it is not empty and has no blanks around it. -/
def ConfTree.GoodName (name : String) : Prop := name ≠ "" ∧ Text.trim name = name
