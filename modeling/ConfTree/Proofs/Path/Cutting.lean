import ConfTree.Path.Segment
import ConfTree.Proofs.Text.Blank
import Mathlib.Tactic.Lemma

/-!
# How path texts are cut

A path text is cut at the separators outside of brackets, and the parts are trimmed. A text is
`Solid` for a kind of separators if the splitter passes over it without a cut, and without an open
bracket at its end. This is so if all brackets and quotes in it are closed and all separators stand
in brackets (`Enclosed.solid`). Solid texts that are joined by separators are cut into these texts
again (`partsOf_joined`), and blanks around a text make no difference (`partsOf_padded`).
-/

namespace ConfTree.Path

open ConfTree.Text

variable {sep : Char → Bool} {depth : Nat} {cs ds : List Char}

/-- The separators of the segments of a path. -/
def isSlash (c : Char) : Bool := c == '/'

/-- The separators of the alternatives of a path. -/
def isBar (c : Char) : Bool := c == ';' || c == '|'

/-- No separator is blank or an opening or closing bracket. -/
def Separating (sep : Char → Bool) : Prop :=
  ∀ c, sep c = true → c ≠ '[' ∧ c ≠ ']' ∧ isBlank c = false

/-- A slash separates parts. -/
lemma separating_isSlash : Separating isSlash := by
  intro c h
  obtain rfl := eq_of_beq h
  decide

/-- The marks between alternatives separate parts. -/
lemma separating_isBar : Separating isBar := by
  intro c h
  rcases Bool.or_eq_true_iff.1 h with h | h
  · obtain rfl := eq_of_beq h
    decide
  · obtain rfl := eq_of_beq h
    decide

/-! ## Passing over a text -/

/-- The splitter goes on behind a character that it does not act on. -/
lemma splitFrom_char {c : Char} (opening : c ≠ '[') (closing : c ≠ ']')
    (quotes : 0 < depth → c ≠ '\'' ∧ c ≠ '"') (other : depth = 0 → sep c = false)
    (current rest : List Char) :
    splitFrom sep depth none current (c :: rest) =
      splitFrom sep depth none (c :: current) rest := by
  have quote : ¬ ((c = '\'' || c = '"') && 0 < depth) = true := by
    simp only [Bool.and_eq_true, Bool.or_eq_true, decide_eq_true_eq, not_and]
    exact fun e inside => not_or.2 (quotes inside) e
  have cut : ¬ (depth = 0 && sep c) = true := by simpa using other
  simp only [splitFrom, if_neg quote, if_neg opening, if_neg closing, if_neg cut]

/-- Between quotes, everything but the quote is passed over. -/
lemma splitFrom_hidden {q : Char} (h : q ∉ cs) (current rest : List Char) :
    splitFrom sep depth (some q) current (cs ++ rest) =
      splitFrom sep depth (some q) (cs.reverse ++ current) rest := by
  induction cs generalizing current with
  | nil => rfl
  | cons c cs ih =>
    obtain ⟨other, tail⟩ := not_or.1 (mt List.mem_cons.2 h)
    have go : ¬ c = q := fun e => other e.symm
    rw [List.cons_append, splitFrom]
    simp only [if_neg go]
    rw [ih tail, List.reverse_cons, List.append_assoc]
    rfl

/-- A text between brackets: all quotes in it are closed, and all brackets outside of quotes. -/
inductive Inside : List Char → Prop where
  | nil :
    Inside []
  | char {c cs} :
    c ≠ '[' → c ≠ ']' → c ≠ '\'' → c ≠ '"' →
    Inside cs →
    Inside (c :: cs)
  | quoted {q text cs} :
    q = '\'' ∨ q = '"' →
    q ∉ text →
    Inside cs →
    Inside (q :: (text ++ q :: cs))
  | bracketed {inner cs} :
    Inside inner →
    Inside cs →
    Inside ('[' :: (inner ++ ']' :: cs))

/-- Characters that are neither brackets nor quotes can stand in front. -/
lemma Inside.append (h : ∀ c ∈ cs, c ≠ '[' ∧ c ≠ ']' ∧ c ≠ '\'' ∧ c ≠ '"') (k : Inside ds) :
    Inside (cs ++ ds) := by
  induction cs with
  | nil => exact k
  | cons c cs ih =>
    obtain ⟨opening, closing, single, double⟩ := h c List.mem_cons_self
    exact .char opening closing single double (ih fun x hx => h x (List.mem_cons_of_mem _ hx))

/-- A text between brackets is passed over. -/
lemma Inside.passes (h : Inside cs) (depth : Nat) (current rest : List Char) :
    splitFrom sep (depth + 1) none current (cs ++ rest) =
      splitFrom sep (depth + 1) none (cs.reverse ++ current) rest := by
  induction h generalizing depth current rest with
  | nil => rfl
  | char opening closing single double _ ih =>
    rw [List.cons_append, splitFrom_char opening closing (fun _ => ⟨single, double⟩)
      (fun h => absurd h (Nat.succ_ne_zero _)), ih]
    simp
  | @quoted q text cs quote free _ ih =>
    have opens : splitFrom sep (depth + 1) none current (q :: (text ++ q :: (cs ++ rest))) =
        splitFrom sep (depth + 1) (some q) (q :: current) (text ++ q :: (cs ++ rest)) := by
      rcases quote with rfl | rfl <;> simp [splitFrom]
    have closes : splitFrom sep (depth + 1) (some q) (text.reverse ++ q :: current)
        (q :: (cs ++ rest)) =
          splitFrom sep (depth + 1) none (q :: (text.reverse ++ q :: current)) (cs ++ rest) := by
      simp [splitFrom]
    rw [List.cons_append, List.append_assoc, List.cons_append, opens, splitFrom_hidden free, closes,
      ih]
    simp
  | @bracketed inner cs _ _ ihInner ih =>
    have opens : splitFrom sep (depth + 1) none current ('[' :: (inner ++ ']' :: (cs ++ rest))) =
        splitFrom sep (depth + 1 + 1) none ('[' :: current) (inner ++ ']' :: (cs ++ rest)) := by
      simp [splitFrom]
    have closes : splitFrom sep (depth + 1 + 1) none (inner.reverse ++ '[' :: current)
        (']' :: (cs ++ rest)) =
          splitFrom sep (depth + 1) none (']' :: (inner.reverse ++ '[' :: current))
            (cs ++ rest) := by
      simp [splitFrom]
    rw [List.cons_append, List.append_assoc, List.cons_append, opens, ihInner, closes, ih]
    simp

/-- All brackets that are opened in the text and all quotes in brackets are closed, and no separator
stands outside of brackets. -/
inductive Enclosed (sep : Char → Bool) : List Char → Prop where
  | nil :
    Enclosed sep []
  | char {c cs} :
    c ≠ '[' →
    sep c = false →
    Enclosed sep cs →
    Enclosed sep (c :: cs)
  | bracketed {inner cs} :
    Inside inner →
    Enclosed sep cs →
    Enclosed sep ('[' :: (inner ++ ']' :: cs))

/-- Characters that are neither opening brackets nor separators can stand in front. -/
lemma Enclosed.append (h : ∀ c ∈ cs, c ≠ '[' ∧ sep c = false) (k : Enclosed sep ds) :
    Enclosed sep (cs ++ ds) := by
  induction cs with
  | nil => exact k
  | cons c cs ih =>
    obtain ⟨opening, other⟩ := h c List.mem_cons_self
    exact .char opening other (ih fun x hx => h x (List.mem_cons_of_mem _ hx))

/-- A text without brackets and separators is enclosed. -/
lemma Enclosed.of_plain (h : ∀ c ∈ cs, c ≠ '[' ∧ sep c = false) : Enclosed sep cs := by
  have enclosed := Enclosed.append h .nil
  rwa [List.append_nil] at enclosed

/-- The splitter passes over the text as a whole. -/
def Solid (sep : Char → Bool) (cs : List Char) : Prop :=
  ∀ current rest,
    splitFrom sep 0 none current (cs ++ rest) = splitFrom sep 0 none (cs.reverse ++ current) rest

/-- The empty text is solid. -/
lemma Solid.nil : Solid sep [] := fun _ _ => rfl

/-- Solid texts one after the other are solid. -/
lemma Solid.append (h : Solid sep cs) (k : Solid sep ds) : Solid sep (cs ++ ds) := by
  intro current rest
  rw [List.append_assoc, h, k, List.reverse_append, List.append_assoc]

/-- A text whose brackets are closed is passed over if it has no separators outside of them. -/
lemma Enclosed.solid (h : Enclosed sep cs) : Solid sep cs := by
  intro current rest
  induction h generalizing current with
  | nil => rfl
  | @char c cs opening other _ ih =>
    have passed : splitFrom sep 0 none current (c :: (cs ++ rest)) =
        splitFrom sep 0 none (c :: current) (cs ++ rest) := by
      by_cases closing : c = ']'
      · -- A closing bracket that nothing opened changes nothing.
        subst closing
        simp [splitFrom]
      · exact splitFrom_char opening closing (fun h => absurd h (Nat.lt_irrefl 0))
          (fun _ => other) current _
    rw [List.cons_append, passed, ih]
    simp
  | @bracketed inner cs inside _ ih =>
    have opens : splitFrom sep 0 none current ('[' :: (inner ++ ']' :: (cs ++ rest))) =
        splitFrom sep (0 + 1) none ('[' :: current) (inner ++ ']' :: (cs ++ rest)) := by
      simp [splitFrom]
    have closes : splitFrom sep (0 + 1) none (inner.reverse ++ '[' :: current)
        (']' :: (cs ++ rest)) =
          splitFrom sep 0 none (']' :: (inner.reverse ++ '[' :: current)) (cs ++ rest) := by
      simp [splitFrom]
    rw [List.cons_append, List.append_assoc, List.cons_append, opens, inside.passes, closes, ih]
    simp

/-- A text without opening brackets and separators is solid. -/
lemma Solid.of_plain (h : ∀ c ∈ cs, c ≠ '[' ∧ sep c = false) : Solid sep cs :=
  (Enclosed.of_plain h).solid

/-- A slash does not separate alternatives. -/
lemma solid_slash {c : Char} (h : isSlash c = true) : Solid isBar [c] := by
  obtain rfl := eq_of_beq h
  exact .of_plain (by simp [isBar])

/-- A solid text has no separator. -/
lemma splitOutside_eq (h : Solid sep cs) : splitOutside sep cs = [cs] := by
  have := h [] []
  rw [List.append_nil, List.append_nil, splitFrom, List.reverse_reverse] at this
  exact this

/-- A text without separators is not cut, whatever brackets and quotes are open. -/
lemma splitFrom_of_free (free : ∀ c ∈ cs, sep c = false) (depth : Nat) (quote : Option Char)
    (current : List Char) : splitFrom sep depth quote current cs = [current.reverse ++ cs] := by
  fun_induction splitFrom sep depth quote current cs with
  | case1 => simp
  | case6 depth current c cs _ _ _ cut =>
    simp [free c List.mem_cons_self] at cut
  | _ => simp_all

/-- A quote in brackets that is never closed hides all that follows. -/
lemma splitFrom_unclosed {front : List Char} {q : Char} (solid : Solid sep front)
    (quote : q = '\'' ∨ q = '"') (inside : Inside cs) (free : q ∉ ds) :
    splitFrom sep 0 none [] (front ++ '[' :: (cs ++ q :: ds)) =
      [front ++ '[' :: (cs ++ q :: ds)] := by
  have opens : splitFrom sep 0 none front.reverse ('[' :: (cs ++ q :: ds)) =
      splitFrom sep (0 + 1) none ('[' :: front.reverse) (cs ++ q :: ds) := by
    simp [splitFrom]
  have hides : splitFrom sep (0 + 1) none (cs.reverse ++ '[' :: front.reverse) (q :: ds) =
      splitFrom sep (0 + 1) (some q) (q :: (cs.reverse ++ '[' :: front.reverse)) ds := by
    rcases quote with rfl | rfl <;> simp [splitFrom]
  have rest : splitFrom sep (0 + 1) (some q) _ (ds ++ []) = _ :=
    splitFrom_hidden free (q :: (cs.reverse ++ '[' :: front.reverse)) []
  rw [List.append_nil] at rest
  rw [solid, List.append_nil, opens, inside.passes, hides, rest, splitFrom]
  simp

/-! ## Texts with separators between them -/

/-- The text is that of the parts in order, with a separator between any two of them. -/
inductive Joined (sep : Char → Bool) : List (List Char) → List Char → Prop where
  | nil :
    Joined sep [] []
  | single (p) :
    Joined sep [p] p
  | cons {p c q parts text} :
    sep c = true →
    Joined sep (q :: parts) text →
    Joined sep (p :: q :: parts) (p ++ c :: text)

/-- Parts with slashes between them are joined. -/
lemma joined_intercalate (parts : List (List Char)) :
    Joined isSlash parts (['/'].intercalate parts) := by
  induction parts with
  | nil => exact .nil
  | cons p parts ih =>
    cases parts with
    | nil =>
      rw [List.intercalate_singleton]
      exact .single p
    | cons q parts =>
      rw [List.intercalate_cons_cons, List.append_assoc]
      exact .cons rfl ih

/-- Two joined texts are joined by one more separator. -/
lemma Joined.append {ps qs : List (List Char)} {c : Char} (h : Joined sep ps cs)
    (hp : ps ≠ []) (hc : sep c = true) (k : Joined sep qs ds) (hq : qs ≠ []) :
    Joined sep (ps ++ qs) (cs ++ c :: ds) := by
  induction h with
  | nil => exact absurd rfl hp
  | single p =>
    obtain ⟨q, qs, rfl⟩ := List.exists_cons_of_ne_nil hq
    exact .cons hc k
  | cons hd _ ih =>
    rw [List.append_assoc]
    exact .cons hd (ih (List.cons_ne_nil _ _))

/-- A joined text starts with its first part. -/
lemma Joined.prefix_of_cons {p : List Char} {parts : List (List Char)}
    (h : Joined sep (p :: parts) cs) : p <+: cs := by
  cases h with
  | single => exact List.prefix_rfl
  | cons => exact List.prefix_append _ _

/-- A joined text is passed over if its parts are, and the separators. -/
lemma Joined.solid {sep' : Char → Bool} {parts : List (List Char)} (h : Joined sep parts cs)
    (separators : ∀ c, sep c = true → Solid sep' [c]) (solid : ∀ p ∈ parts, Solid sep' p) :
    Solid sep' cs := by
  induction h with
  | nil => exact .nil
  | single p => exact solid p List.mem_cons_self
  | @cons p c q parts text hc _ ih =>
    have rest := ih fun x hx => solid x (List.mem_cons_of_mem _ hx)
    rw [← List.singleton_append]
    exact (solid p List.mem_cons_self).append ((separators c hc).append rest)

/-- Solid texts are what stands between the separators. -/
lemma Joined.splitFrom_eq {parts : List (List Char)} (h : Joined sep parts cs)
    (separating : Separating sep) (solid : ∀ p ∈ parts, Solid sep p) (hne : parts ≠ []) :
    splitFrom sep 0 none [] cs = parts := by
  induction h with
  | nil => exact absurd rfl hne
  | single p => exact splitOutside_eq (solid p List.mem_cons_self)
  | @cons p c q parts text hc _ ih =>
    have rest := ih (fun x hx => solid x (List.mem_cons_of_mem _ hx)) (List.cons_ne_nil _ _)
    obtain ⟨opening, closing, -⟩ := separating c hc
    rw [solid p List.mem_cons_self, List.append_nil, splitFrom]
    simp only [Nat.lt_irrefl, decide_false, Bool.and_false, Bool.false_eq_true, if_false, opening,
      closing, hc, decide_true, Bool.and_true, if_true]
    rw [List.reverse_reverse, rest]

/-! ## Blanks -/

/-- A blank is no character that is not one. -/
lemma ne_of_isBlank {c d : Char} (h : isBlank c = true) (hd : isBlank d = false) : c ≠ d := by
  rintro rfl
  rw [h] at hd
  cases hd

/-- Blanks are no separators. -/
lemma Separating.blank (separating : Separating sep) {c : Char} (h : isBlank c = true) :
    sep c = false := by
  rw [Bool.eq_false_iff]
  intro hc
  obtain ⟨-, -, solid⟩ := separating c hc
  rw [h] at solid
  cases solid

/-- Blanks are solid. -/
lemma Solid.of_blanks (separating : Separating sep) (h : ∀ c ∈ cs, isBlank c = true) :
    Solid sep cs :=
  .of_plain fun c hc => ⟨ne_of_isBlank (h c hc) (by decide), separating.blank (h c hc)⟩

/-- A solid text stays solid with blanks around it. -/
lemma Solid.padded (h : Solid sep cs) (separating : Separating sep) {padded : List Char}
    (k : Padded cs padded) : Solid sep padded := by
  obtain ⟨before, after, hb, ha, rfl⟩ := k
  exact (Solid.of_blanks separating hb).append (h.append (.of_blanks separating ha))

/-- Blanks at the end go to the last part. -/
lemma splitFrom_blanks (separating : Separating sep) (h : ∀ c ∈ cs, isBlank c = true)
    (quote : Option Char) (current : List Char) :
    splitFrom sep depth quote current cs = [current.reverse ++ cs] := by
  induction cs generalizing quote current with
  | nil => rw [splitFrom, List.append_nil]
  | cons c cs ih =>
    have blank := h c List.mem_cons_self
    have tail := ih fun x hx => h x (List.mem_cons_of_mem _ hx)
    have passed : ∃ quote',
        splitFrom sep depth quote current (c :: cs) =
          splitFrom sep depth quote' (c :: current) cs := by
      cases quote with
      | some q => exact ⟨_, by rw [splitFrom]⟩
      | none =>
        refine ⟨none, splitFrom_char (ne_of_isBlank blank (by decide))
          (ne_of_isBlank blank (by decide)) (fun _ => ⟨ne_of_isBlank blank (by decide),
            ne_of_isBlank blank (by decide)⟩) (fun _ => separating.blank blank) current cs⟩
    obtain ⟨quote', passed⟩ := passed
    rw [passed, tail]
    simp

/-- Blanks in front of the first part and behind the last one do not count when the parts are
trimmed. -/
lemma map_trimChars_splitFrom (separating : Separating sep) {before after : List Char}
    (hb : ∀ c ∈ before, isBlank c = true) (ha : ∀ c ∈ after, isBlank c = true)
    (quote : Option Char) (current : List Char) :
    (splitFrom sep depth quote (current ++ before) (cs ++ after)).map trimChars =
      (splitFrom sep depth quote current cs).map trimChars := by
  fun_induction splitFrom sep depth quote current cs generalizing before with
  | case1 depth quote current =>
    have padded : Padded current.reverse ((current ++ before).reverse ++ after) := by
      refine ⟨before.reverse, after, fun c hc => hb c (List.mem_reverse.1 hc), ha, ?_⟩
      rw [List.reverse_append, List.append_assoc]
    rw [List.nil_append, splitFrom_blanks separating ha, List.map_singleton, List.map_singleton,
      padded.trimChars_eq]
  | case2 depth current c cs q ih =>
    rw [List.cons_append, splitFrom]
    exact ih hb
  | case3 depth current c cs quoted ih =>
    rw [List.cons_append, splitFrom]
    simp only [if_pos quoted]
    exact ih hb
  | case4 depth current cs _ ih =>
    rw [List.cons_append, splitFrom]
    simpa using ih hb
  | case5 depth current cs _ _ ih =>
    rw [List.cons_append, splitFrom]
    simpa using ih hb
  | case6 depth current c cs quoted opening closing cut ih =>
    have padded : Padded current.reverse (current ++ before).reverse := by
      refine ⟨before.reverse, [], fun c hc => hb c (List.mem_reverse.1 hc), by simp, ?_⟩
      rw [List.reverse_append, List.append_nil]
    rw [List.cons_append, splitFrom]
    simp only [if_neg quoted, if_neg opening, if_neg closing, if_pos cut, List.map_cons,
      padded.trimChars_eq]
    have rest := @ih [] (by simp)
    rw [List.append_nil] at rest
    rw [rest]
  | case7 depth current c cs quoted opening closing cut ih =>
    rw [List.cons_append, splitFrom]
    simp only [if_neg quoted, if_neg opening, if_neg closing, if_neg cut]
    exact ih hb

/-! ## Parts -/

/-- The parts of a text between separators, trimmed. Blank ones are left out. -/
def partsOf (sep : Char → Bool) (cs : List Char) : List (List Char) :=
  ((splitOutside sep cs).map trimChars).filter fun p => !p.isEmpty

/-- Alternatives are the parts between the marks. -/
lemma readAlternatives_eq (cs : List Char) : readAlternatives cs = partsOf isBar cs := rfl

/-- The segments of an alternative are read from its parts. -/
lemma Alternative.read_eq (cs : List Char) : Alternative.read cs =
    (readSegments (partsOf isSlash cs)).map fun segments => ⟨cs.head? = some '/', segments⟩ := by
  change (readSegments (partsOf isSlash cs) >>= fun segments =>
    Pure.pure (⟨decide (cs.head? = some '/'), segments⟩ : Alternative)) = _
  cases readSegments (partsOf isSlash cs) <;> rfl

/-- Blanks around a text do not change its parts. -/
lemma partsOf_padded (separating : Separating sep) {padded : List Char} (h : Padded cs padded) :
    partsOf sep padded = partsOf sep cs := by
  obtain ⟨before, after, hb, ha, rfl⟩ := h
  have trimmed : (splitFrom sep 0 none ([] ++ before.reverse) (cs ++ after)).map trimChars = _ :=
    map_trimChars_splitFrom separating (fun c hc => hb c (List.mem_reverse.1 hc)) ha none []
  rw [partsOf, splitOutside, Solid.of_blanks separating hb, List.append_nil]
  rw [List.nil_append] at trimmed
  rw [trimmed]
  rfl

/-- The parts of solid texts that are joined are these texts, trimmed. -/
lemma partsOf_joined {parts : List (List Char)} (h : Joined sep parts cs)
    (separating : Separating sep) (solid : ∀ p ∈ parts, Solid sep p) :
    partsOf sep cs = (parts.map trimChars).filter fun p => !p.isEmpty := by
  by_cases hne : parts = []
  · subst hne
    cases h
    rfl
  · rw [partsOf, splitOutside, h.splitFrom_eq separating solid hne]

/-- A solid text is a single part. -/
lemma partsOf_solid (h : Solid sep cs) (hne : trimChars cs ≠ []) :
    partsOf sep cs = [trimChars cs] := by
  rw [partsOf, splitOutside_eq h]
  simp [hne]

/-- A text that does not start with the mark of required paths is cut as it is. -/
lemma Outline.read_optional (h : (trimChars cs).head? ≠ some '!') :
    Outline.read cs = ⟨false, partsOf isBar cs⟩ := by
  rw [Outline.read]
  split
  · rename_i e
    rw [e] at h
    exact absurd rfl h
  · rw [readAlternatives_eq, partsOf_padded separating_isBar (padded_trimChars cs)]

/-- Behind the mark of required paths, a text is cut as it is without the mark. -/
lemma Outline.read_required (cs : List Char) :
    Outline.read ('!' :: cs) = ⟨true, partsOf isBar cs⟩ := by
  have mark := head?_trimChars_cons (show isBlank '!' = false by decide) cs
  obtain ⟨body, trimmed⟩ := List.head?_eq_some_iff.1 mark
  have rest : Padded body cs := by
    obtain ⟨before, after, hb, ha, e⟩ := padded_trimChars ('!' :: cs)
    rw [trimmed] at e
    cases before with
    | nil => exact ⟨[], after, by simp, ha, (List.cons.inj e).2⟩
    | cons b before =>
      have hb := hb b List.mem_cons_self
      rw [← (List.cons.inj e).1] at hb
      cases hb
  rw [Outline.read, trimmed]
  simp only [readAlternatives_eq, partsOf_padded separating_isBar rest]

end ConfTree.Path
