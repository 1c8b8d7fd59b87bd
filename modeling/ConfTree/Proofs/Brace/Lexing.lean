import ConfTree.Brace.Writer
import ConfTree.Brace.Lexer
import Mathlib.Tactic.Lemma

/-!
# Lexing what was written

`Lexes` says which tokens a written text is made of, by the steps that a writer takes: blanks,
marks, and texts as `quote` writes them. The lexer finds exactly these tokens, whatever characters
the texts are made of (`Lexes.lex_eq`). What keeps a text apart from what follows it is that the
first character behind it belongs to no word. In front of anything that starts so, a written text is
one token (`lex_quote`).
-/

namespace ConfTree.Brace

open ConfTree.Text

/-- The token that a written text is read as. -/
def textToken (cs : List Char) : Token :=
  if needsQuotes cs then .quoted (String.ofList cs) else .word (String.ofList cs)

/-- A word ends before the text. -/
def EndsWord (cs : List Char) : Prop := ∀ c ∈ cs.head?, isWordChar c = false

/-- A text written as the given tokens. -/
inductive Lexes : List Char → List Token → Prop where
  | nil : Lexes [] []
  | blank {c cs tokens} :
    isBlank c = true →
    Lexes cs tokens →
    Lexes (c :: cs) tokens
  | opening {cs tokens} :
    Lexes cs tokens →
    Lexes ('{' :: cs) (.opening :: tokens)
  | closing {cs tokens} :
    Lexes cs tokens →
    Lexes ('}' :: cs) (.closing :: tokens)
  | equals {cs tokens} :
    Lexes cs tokens →
    Lexes ('=' :: cs) (.equals :: tokens)
  | text {cs tokens} (s : List Char) :
    EndsWord cs →
    Lexes cs tokens →
    Lexes (quote s ++ cs) (textToken s :: tokens)

variable {c : Char} {cs rest : List Char} {token : Token}

/-! ## Quoted texts -/

/-- A character that the writer escapes is read back. -/
lemma takeQuoted_escapeChar (c : Char) (cs : List Char) :
    takeQuoted '"' (escapeChar c ++ cs) =
      (takeQuoted '"' cs).map fun (text, rest) => (c :: text, rest) := by
  -- One case for each of the characters that have an escape of their own.
  unfold escapeChar
  split
  · subst c
    rfl
  · rename_i quote
    split
    · subst c
      rfl
    · rename_i backslash
      split
      · subst c
        rfl
      · split
        · subst c
          rfl
        · split
          · subst c
            rfl
          · -- Every other character stands for itself.
            rw [List.singleton_append, takeQuoted.eq_3 _ _ _ (by rintro _ _ rfl; contradiction)]
            rw [if_neg quote, if_neg backslash]

/-- A text that was written in quotes is read back up to the closing quote. -/
lemma takeQuoted_escaped (s cs : List Char) :
    takeQuoted '"' (s.flatMap escapeChar ++ '"' :: cs) = some (s, cs) := by
  induction s with
  | nil => rfl
  | cons c s ih =>
    rw [List.flatMap_cons, List.append_assoc, takeQuoted_escapeChar, ih]
    rfl

/-! ## Tokens -/

/-- A comment starts with a slash and a second slash or a star. -/
lemma startsComment_eq_false_iff : startsComment cs = false ↔
    ∀ {c tail}, cs = '/' :: c :: tail → c ≠ '/' ∧ c ≠ '*' := by
  unfold startsComment
  constructor
  · rintro h c tail rfl
    split at h
    · cases h
    · cases h
    · rename_i line block
      exact ⟨fun hc => line tail (by rw [hc]), fun hc => block tail (by rw [hc])⟩
  · intro h
    split
    · exact absurd rfl (h rfl).1
    · exact absurd rfl (h rfl).2
    · rfl

/-- What starts with another character than a slash is no comment. -/
lemma startsComment_cons (h : c ≠ '/') (cs : List Char) : startsComment (c :: cs) = false :=
  startsComment_eq_false_iff.2 fun e => absurd (List.cons.inj e).1 h

/-- Between tokens a character that starts no comment is skipped if it is blank. -/
lemma skipTrivia_cons (comment : startsComment (c :: cs) = false) :
    skipTrivia (c :: cs) = if isBlank c then skipTrivia cs else .ok (c :: cs) := by
  rw [skipTrivia, skipFrom.eq_def]
  split
  · contradiction
  · rename_i e
    cases e
    cases comment
  · rename_i e
    cases e
    cases comment
  · rename_i e
    cases e
    rfl
  · contradiction
  · contradiction
  · contradiction
  · contradiction

/-- A blank in front of a text does not count. -/
lemma skipTrivia_blank (h : isBlank c = true) : skipTrivia (c :: cs) = skipTrivia cs := by
  have other : c ≠ '/' := by
    rintro rfl
    cases h
  rw [skipTrivia_cons (startsComment_cons other cs), if_pos h]

/-- Nothing is skipped before a character that is not blank and starts no comment. -/
lemma skipTrivia_eq (h : isBlank c = false) (comment : startsComment (c :: cs) = false) :
    skipTrivia (c :: cs) = .ok (c :: cs) := by
  rw [skipTrivia_cons comment, if_neg (by simp [h])]

/-- What is skipped in front of two texts alike does not count for the next token. -/
lemma nextToken_congr {ds : List Char} (h : skipTrivia cs = skipTrivia ds) :
    nextToken cs = nextToken ds := by
  rw [nextToken, nextToken, h]

/-- The next token of a text that starts with it. -/
lemma nextToken_eq (h : isBlank c = false) (comment : startsComment (c :: cs) = false)
    (take : takeToken c cs = .ok (token, rest)) :
    nextToken (c :: cs) = .ok (some (token, rest)) := by
  rw [nextToken, skipTrivia_eq h comment]
  simp only [take]

/-- A character of a written word is no delimiter, no quote and no backslash. -/
lemma of_not_special (h : isSpecial c = false) :
    isBlank c = false ∧ isWordChar c = true ∧ c ≠ '{' ∧ c ≠ '}' ∧ c ≠ '=' ∧ c ≠ '"' ∧ c ≠ '\'' := by
  simp only [isSpecial, Bool.or_eq_false_iff, beq_eq_false_iff_ne] at h
  obtain ⟨⟨⟨⟨⟨⟨blank, opening⟩, closing⟩, equals⟩, double⟩, single⟩, -⟩ := h
  refine ⟨blank, ?_, opening, closing, equals, double, single⟩
  simp [isWordChar, blank, opening, closing, equals]

/-- What belongs to no word makes no comment with a slash before it. -/
lemma startsComment_append {s : List Char} (hne : s ≠ []) (h : startsComment s = false)
    (ends : EndsWord cs) : startsComment (s ++ cs) = false := by
  refine startsComment_eq_false_iff.2 fun {d tail} e => ?_
  match s, hne, h with
  | _ :: _ :: _, _, h =>
    cases e
    exact startsComment_eq_false_iff.1 h rfl
  | [_], _, _ =>
    -- What would start a comment with the slash belongs to words.
    cases e
    have noWord := ends d rfl
    constructor
    all_goals
      rintro rfl
      cases noWord

/-- A word ends where what follows belongs to no word. -/
lemma word_append {s : List Char} (h : ∀ c ∈ s, isWordChar c = true) (ends : EndsWord cs) :
    (s ++ cs).takeWhile isWordChar = s ∧ (s ++ cs).dropWhile isWordChar = cs := by
  rw [List.takeWhile_append_of_pos h, List.dropWhile_append_of_pos h]
  cases cs with
  | nil => simp
  | cons d cs => simp [ends d rfl]

/-- A word is read up to what follows. -/
lemma nextToken_word {s : List Char} (plain : needsQuotes s = false) (ends : EndsWord cs) :
    nextToken (s ++ cs) = .ok (some (.word (String.ofList s), cs)) := by
  simp only [needsQuotes, Bool.or_eq_false_iff, List.isEmpty_eq_false_iff,
    List.any_eq_false] at plain
  obtain ⟨⟨hne, comment⟩, special⟩ := plain
  have start := startsComment_append hne comment ends
  obtain ⟨c, s, rfl⟩ := List.exists_cons_of_ne_nil hne
  have chars : ∀ x ∈ c :: s, isSpecial x = false := fun x hx => Bool.eq_false_iff.2 (special x hx)
  obtain ⟨blank, -, opening, closing, equals, double, single⟩ :=
    of_not_special (chars c List.mem_cons_self)
  obtain ⟨take, drop⟩ := word_append
    (fun x hx => (of_not_special (chars x (List.mem_cons_of_mem _ hx))).2.1) ends
  rw [List.cons_append] at start ⊢
  refine nextToken_eq blank start ?_
  simp only [takeToken, opening, closing, equals, double, single, if_false, decide_false,
    Bool.or_self, Bool.false_eq_true]
  rw [take, drop]

/-- A written text is read as its token, whatever it is made of. -/
lemma nextToken_quote (s : List Char) (ends : EndsWord cs) :
    nextToken (quote s ++ cs) = .ok (some (textToken s, cs)) := by
  unfold quote textToken
  split
  · have text : ('"' :: s.flatMap escapeChar ++ ['"']) ++ cs =
        '"' :: (s.flatMap escapeChar ++ '"' :: cs) := by simp
    rw [text]
    refine nextToken_eq (by decide) (by rfl) ?_
    simp only [takeToken, Char.reduceEq, if_false, decide_true, Bool.true_or, if_true,
      takeQuoted_escaped]
  · rename_i plain
    exact nextToken_word (Bool.eq_false_iff.2 plain) ends

/-! ## All tokens -/

/-- At the end of a text there are no more tokens. -/
lemma lex_of_none (h : nextToken cs = .ok none) : lex cs = ([], none) := by
  rw [lex]
  split
  · rename_i e
    rw [h] at e
    cases e
  · rfl
  · rename_i e
    rw [h] at e
    cases e

/-- Behind a fault there are no more tokens. -/
lemma lex_of_error {fault : Fault} (h : nextToken cs = .error fault) :
    lex cs = ([], some fault) := by
  rw [lex]
  split
  · rename_i e
    rw [h] at e
    cases e
    rfl
  · rename_i e
    rw [h] at e
    cases e
  · rename_i e
    rw [h] at e
    cases e

/-- The tokens of a text are the first one and those of the rest. -/
lemma lex_of_some (h : nextToken cs = .ok (some (token, rest))) :
    lex cs = (⟨token, rest⟩ :: (lex rest).1, (lex rest).2) := by
  rw [lex]
  split
  · rename_i e
    rw [h] at e
    cases e
  · rename_i e
    rw [h] at e
    cases e
  · rename_i e
    rw [h] at e
    cases e
    rfl

/-- Texts with the same next token have the same tokens. -/
lemma lex_congr {ds : List Char} (h : nextToken cs = nextToken ds) : lex cs = lex ds := by
  rw [lex, lex]
  grind

/-- A written text in front of what belongs to no word is one token that carries the text, whatever
characters this is made of, and the lexer goes on with exactly what follows. -/
theorem lex_quote (s : String) {rest : List Char}
    (ends : ∀ c ∈ rest.head?, isBlank c = true ∨ c = '{' ∨ c = '}' ∨ c = '=') :
    ∃ token, (token = .word s ∨ token = .quoted s) ∧
      nextToken (quote s.toList ++ rest) = .ok (some (token, rest)) ∧
      lex (quote s.toList ++ rest) = (⟨token, rest⟩ :: (lex rest).1, (lex rest).2) := by
  have endsWord : EndsWord rest := by
    intro c hc
    simpa only [isWordChar, Bool.not_eq_false', Bool.or_eq_true, beq_iff_eq, or_assoc] using
      ends c hc
  have next := nextToken_quote s.toList endsWord
  refine ⟨textToken s.toList, ?_, next, lex_of_some next⟩
  unfold textToken
  rw [String.ofList_toList]
  split
  · exact .inr rfl
  · exact .inl rfl

/-- A text that looks like a comment, with quotes, a backslash, a brace, a line end and a blank that
is no ASCII character, in front of a value that is not closed. -/
theorem lex_quote_odd :
    let s := "//* \"\\' \x7b\n\u00a0"
    let rest := "='".toList
    (∀ c ∈ rest.head?, isBlank c = true ∨ c = '{' ∨ c = '}' ∨ c = '=') ∧
      String.ofList (quote s.toList) = "\"//* \\\"\\\\' \x7b\\n\u00a0\"" ∧
      ∃ token, (token = .word s ∨ token = .quoted s) ∧
        nextToken (quote s.toList ++ rest) = .ok (some (token, rest)) ∧
        lex (quote s.toList ++ rest) = (⟨token, rest⟩ :: (lex rest).1, (lex rest).2) := by
  intro s rest
  have ends : ∀ c ∈ rest.head?, isBlank c = true ∨ c = '{' ∨ c = '}' ∨ c = '=' := by
    rintro c ⟨⟩
    exact .inr (.inr (.inr rfl))
  exact ⟨ends, by decide +kernel, lex_quote s ends⟩

/-- The lexer finds the tokens that a text was written as. -/
lemma Lexes.lex_eq {tokens : List Token} (h : Lexes cs tokens) :
    (lex cs).1.map Lexeme.token = tokens ∧ (lex cs).2 = none := by
  -- A first token that is read off a text is the first token of the text.
  have first : ∀ {cs rest : List Char} {token : Token} {tokens : List Token},
      nextToken cs = .ok (some (token, rest)) →
      (lex rest).1.map Lexeme.token = tokens ∧ (lex rest).2 = none →
      (lex cs).1.map Lexeme.token = token :: tokens ∧ (lex cs).2 = none := by
    intro cs rest token tokens next ih
    rw [lex_of_some next]
    exact ⟨by rw [List.map_cons, ih.1], ih.2⟩
  induction h with
  | nil => exact ⟨by rw [lex_of_none rfl]; rfl, by rw [lex_of_none rfl]⟩
  | @blank c cs _ hb _ ih =>
    rw [lex_congr (nextToken_congr (skipTrivia_blank hb))]
    exact ih
  | opening _ ih => exact first (nextToken_eq (by decide) rfl rfl) ih
  | closing _ ih => exact first (nextToken_eq (by decide) rfl rfl) ih
  | equals _ ih => exact first (nextToken_eq (by decide) rfl rfl) ih
  | text s ends _ ih => exact first (nextToken_quote s ends) ih

end ConfTree.Brace
