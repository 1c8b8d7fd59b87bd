import ConfTree.Proofs.Brace.Lexing
import Mathlib.Data.List.TakeWhile

/-!
# Gaps between tokens

`Gap` says what may stand between tokens: blanks and closed comments. The lexer skips a gap in front
of any text (`Gap.skipTrivia_append`), and what it skips in front of a token is a gap
(`exists_gap`). So a gap can be put in front of a token of a text, which has the same tokens then
(`TokenAt.lex_gap`). Only the token before must not go on into the gap: a word ends in front of a
blank, and every other token ends by itself (`exists_nextToken`).
-/

namespace ConfTree.Brace

open ConfTree.Text

/-- Blanks, line comments with the line feeds that end them, and closed block comments, one after
the other. -/
inductive Gap : List Char → Prop where
  | nil : Gap []
  | blank {c gap} :
    isBlank c = true →
    Gap gap →
    Gap (c :: gap)
  | lineComment {body gap} :
    '\n' ∉ body →
    Gap gap →
    Gap ('/' :: '/' :: (body ++ '\n' :: gap))
  | blockComment {body gap} :
    ¬ ['*', '/'] <:+: body →
    Gap gap →
    Gap ('/' :: '*' :: (body ++ '*' :: '/' :: gap))

variable {cs gap after rest : List Char} {token : Token}

/-! ## Skipping -/

/-- A line comment goes on up to the line end. -/
lemma skipFrom_lineComment_cons (c : Char) (cs : List Char) : skipFrom .lineComment (c :: cs) =
    skipFrom (if c = '\n' then .between else .lineComment) cs := rfl

/-- A block comment goes on up to a slash behind a star. -/
lemma skipFrom_blockComment_cons (star : Bool) (c : Char) (cs : List Char) :
    skipFrom (.blockComment star) (c :: cs) =
      skipFrom (if star && c = '/' then .between else .blockComment (c == '*')) cs := rfl

/-- Two slashes start a line comment. -/
lemma skipTrivia_lineComment (cs : List Char) :
    skipTrivia ('/' :: '/' :: cs) = skipFrom .lineComment cs := rfl

/-- A slash and a star start a block comment. -/
lemma skipTrivia_blockComment (cs : List Char) :
    skipTrivia ('/' :: '*' :: cs) = skipFrom (.blockComment false) cs := rfl

/-- A line comment is skipped up to its line feed. -/
lemma skipFrom_lineComment {body : List Char} (h : '\n' ∉ body) (cs : List Char) :
    skipFrom .lineComment (body ++ '\n' :: cs) = skipFrom .between cs := by
  induction body with
  | nil => rfl
  | cons c body ih =>
    rw [List.mem_cons, not_or] at h
    rw [List.cons_append, skipFrom_lineComment_cons, if_neg (Ne.symm h.1)]
    exact ih h.2

/-- A block comment is skipped up to the first star with a slash behind it. The star that was read
last, if it was one, counts with what is left of the body. -/
lemma skipFrom_blockComment {body : List Char} (star : Bool)
    (h : ¬ ['*', '/'] <:+: (if star then '*' :: body else body)) (cs : List Char) :
    skipFrom (.blockComment star) (body ++ '*' :: '/' :: cs) = skipFrom .between cs := by
  induction body generalizing star with
  | nil => cases star <;> rfl
  | cons c body ih =>
    have open_ : (star && decide (c = '/')) = false := by
      rw [Bool.and_eq_false_iff, decide_eq_false_iff_not]
      cases star with
      | false => exact .inl rfl
      | true =>
        refine .inr ?_
        rintro rfl
        exact h ⟨[], body, rfl⟩
    rw [List.cons_append, skipFrom_blockComment_cons, if_neg (by simpa using open_)]
    refine ih _ fun inside => h ?_
    by_cases hc : c = '*'
    · subst hc
      cases star with
      | false => exact inside
      | true => exact List.infix_cons inside
    · rw [if_neg (by simpa using hc)] at inside
      cases star with
      | false => exact List.infix_cons inside
      | true => exact List.infix_cons (List.infix_cons inside)

/-- A gap in front of a text does not count. -/
lemma Gap.skipTrivia_append (h : Gap gap) (cs : List Char) :
    skipTrivia (gap ++ cs) = skipTrivia cs := by
  induction h with
  | nil => rfl
  | blank hc _ ih => exact (skipTrivia_blank hc).trans ih
  | @lineComment body gap free _ ih =>
    rw [← ih, List.cons_append, List.cons_append, List.append_assoc, skipTrivia_lineComment]
    exact skipFrom_lineComment free _
  | @blockComment body gap free _ ih =>
    rw [← ih, List.cons_append, List.cons_append, List.append_assoc,
      skipTrivia_blockComment]
    exact skipFrom_blockComment false free _

/-- A line comment in front of a token is closed. -/
lemma exists_lineComment {c : Char} (h : skipFrom .lineComment cs = .ok (c :: after)) :
    ∃ body rest, cs = body ++ '\n' :: rest ∧ '\n' ∉ body ∧
      skipFrom .between rest = .ok (c :: after) := by
  induction cs with
  | nil => cases h
  | cons d cs ih =>
    rw [skipFrom_lineComment_cons] at h
    split at h
    · rename_i hd
      exact ⟨[], cs, by rw [hd]; rfl, List.not_mem_nil, h⟩
    · rename_i hd
      obtain ⟨body, rest, rfl, free, h⟩ := ih h
      exact ⟨d :: body, rest, rfl, by simp [free, Ne.symm hd], h⟩

/-- A block comment that was skipped is closed. -/
lemma exists_blockComment (star : Bool) (h : skipFrom (.blockComment star) cs = .ok after) :
    ∃ body rest, (if star then '*' :: cs else cs) = body ++ '*' :: '/' :: rest ∧
      ¬ ['*', '/'] <:+: body ∧ skipFrom .between rest = .ok after := by
  induction cs generalizing star with
  | nil => cases h
  | cons c cs ih =>
    rw [skipFrom_blockComment_cons] at h
    split at h
    · rename_i close
      rw [Bool.and_eq_true, decide_eq_true_eq] at close
      obtain ⟨rfl, rfl⟩ := close
      exact ⟨[], cs, rfl, by simp, h⟩
    · rename_i open_
      obtain ⟨body, rest, e, free, h⟩ := ih _ h
      obtain ⟨body, e, free⟩ : ∃ body, c :: cs = body ++ '*' :: '/' :: rest ∧
          ¬ ['*', '/'] <:+: body := by
        by_cases hc : c = '*'
        · subst hc
          exact ⟨body, e, free⟩
        · rw [if_neg (by simpa using hc)] at e
          refine ⟨c :: body, by rw [e]; rfl, fun inside => ?_⟩
          rcases List.infix_cons_iff.1 inside with ⟨tail, ht⟩ | inside
          · exact hc (List.cons.inj ht).1.symm
          · exact free inside
      cases star with
      | false => exact ⟨body, rest, e, free, h⟩
      | true =>
        refine ⟨'*' :: body, rest, congrArg (List.cons '*') e, fun inside => ?_, h⟩
        rcases List.infix_cons_iff.1 inside with ⟨tail, ht⟩ | inside
        · -- A slash behind the star that was read last would have closed the comment.
          rw [← (List.cons.inj ht).2] at e
          exact open_ (by simpa using (List.cons.inj e).1)
        · exact free inside

/-- What stands in front of a token is a gap. -/
lemma exists_gap {c : Char} (h : skipTrivia cs = .ok (c :: after)) :
    isBlank c = false ∧ startsComment (c :: after) = false ∧
      ∃ gap, Gap gap ∧ cs = gap ++ c :: after := by
  induction n : cs.length using Nat.strongRecOn generalizing cs with
  | _ n ih =>
    subst n
    match cs with
    | [] => cases h
    | d :: cs =>
      cases comment : startsComment (d :: cs) with
      | false =>
        rw [skipTrivia_cons comment] at h
        split at h
        · rename_i blank
          obtain ⟨solid, token, gap, hg, rfl⟩ := ih _ (Nat.lt_succ_self _) h rfl
          exact ⟨solid, token, d :: gap, .blank blank hg, rfl⟩
        · rename_i solid
          cases h
          exact ⟨Bool.eq_false_iff.2 solid, comment, [], .nil, rfl⟩
      | true =>
        unfold startsComment at comment
        split at comment
        · rename_i line
          cases line
          rw [skipTrivia_lineComment] at h
          obtain ⟨body, rest, rfl, free, h⟩ := exists_lineComment h
          obtain ⟨solid, token, gap, hg, rfl⟩ := ih rest.length (by simp; omega) h rfl
          exact ⟨solid, token, _, .lineComment free hg, by simp⟩
        · rename_i block
          cases block
          rw [skipTrivia_blockComment] at h
          obtain ⟨body, rest, rfl, free, h⟩ := exists_blockComment false h
          obtain ⟨solid, token, gap, hg, rfl⟩ := ih rest.length (by simp; omega) h rfl
          exact ⟨solid, token, _, .blockComment free hg, by simp⟩
        · cases comment

/-! ## Tokens in front of another rest -/

/-- A quoted text is taken in front of any rest. -/
lemma exists_takeQuoted {quote : Char} (mark : quote ≠ '\\') {text : List Char}
    (h : takeQuoted quote cs = some (text, rest)) :
    ∃ front, cs = front ++ rest ∧
      ∀ rest', takeQuoted quote (front ++ rest') = some (text, rest') := by
  -- Where no escape starts, the character decides.
  have plain {c : Char} {cs : List Char} (other : c ≠ '\\') : takeQuoted quote (c :: cs) =
      if c = quote then some ([], cs)
      else (takeQuoted quote cs).map (Prod.map (List.cons c) id) := by
    rw [takeQuoted.eq_3 _ _ _ (by rintro _ _ rfl; contradiction), if_neg other]
    rfl
  fun_induction takeQuoted quote cs generalizing text rest with
  | case1 => cases h
  | case2 c cs ih =>
    obtain ⟨⟨t, r⟩, ht, he⟩ := Option.map_eq_some_iff.1 h
    obtain ⟨rfl, rfl⟩ := Prod.mk.inj he
    obtain ⟨front, rfl, anywhere⟩ := ih ht
    refine ⟨'\\' :: c :: front, rfl, fun rest' => ?_⟩
    rw [List.cons_append, List.cons_append, takeQuoted, anywhere, Option.map_some]
  | case3 cs other =>
    obtain ⟨rfl, rfl⟩ := Prod.mk.inj (Option.some.inj h)
    exact ⟨[quote], rfl, fun rest' => (plain mark).trans (if_pos rfl)⟩
  | case4 => cases h
  | case5 c cs other noQuote noBackslash ih =>
    obtain ⟨⟨t, r⟩, ht, he⟩ := Option.map_eq_some_iff.1 h
    obtain ⟨rfl, rfl⟩ := Prod.mk.inj he
    obtain ⟨front, rfl, anywhere⟩ := ih ht
    refine ⟨c :: front, rfl, fun rest' => ?_⟩
    rw [List.cons_append, plain noBackslash, if_neg noQuote, anywhere, Option.map_some]
    rfl

/-- A comment is told by the first two characters. -/
lemma startsComment_of_append {s : List Char} (h : startsComment (s ++ cs) = false) :
    startsComment s = false := by
  refine startsComment_eq_false_iff.2 fun e => ?_
  subst e
  exact startsComment_eq_false_iff.1 h rfl

/-- Where the characters of a word are dropped, a word ends. -/
lemma endsWord_dropWhile (cs : List Char) : EndsWord (cs.dropWhile isWordChar) := by
  intro c hc
  have stop := List.head?_dropWhile_not isWordChar cs
  rw [Option.mem_def.1 hc] at stop
  simpa using stop

/-- A token is taken in front of any rest that ends a word where the first one did. It does not
become the start of a comment. -/
lemma exists_takeToken {c : Char} (solid : startsComment (c :: cs) = false)
    (h : takeToken c cs = .ok (token, rest)) :
    ∃ front, cs = front ++ rest ∧ ∀ rest', (EndsWord rest → EndsWord rest') →
      startsComment (c :: (front ++ rest')) = false ∧
        takeToken c (front ++ rest') = .ok (token, rest') := by
  unfold takeToken at h ⊢
  split at h
  · subst c
    cases h
    exact ⟨[], rfl, fun rest' _ => ⟨startsComment_cons (by decide) _, rfl⟩⟩
  split at h
  · subst c
    cases h
    exact ⟨[], rfl, fun rest' _ => ⟨startsComment_cons (by decide) _, rfl⟩⟩
  split at h
  · subst c
    cases h
    exact ⟨[], rfl, fun rest' _ => ⟨startsComment_cons (by decide) _, rfl⟩⟩
  rename_i opening closing equals
  simp only [if_neg opening, if_neg closing, if_neg equals]
  split at h
  · rename_i quote
    have mark : c = '"' ∨ c = '\'' := by simpa using quote
    have slash : c ≠ '/' := by rcases mark with rfl | rfl <;> decide
    have backslash : c ≠ '\\' := by rcases mark with rfl | rfl <;> decide
    split at h
    · rename_i text rest taken
      cases h
      obtain ⟨front, rfl, anywhere⟩ := exists_takeQuoted backslash taken
      refine ⟨front, rfl, fun rest' _ => ⟨startsComment_cons slash _, ?_⟩⟩
      rw [if_pos quote, anywhere]
    · cases h
  · rename_i quote
    cases h
    have split : cs.takeWhile isWordChar ++ cs.dropWhile isWordChar = cs :=
      List.takeWhile_append_dropWhile
    refine ⟨cs.takeWhile isWordChar, split.symm, fun rest' ends => ?_⟩
    have ends := ends (endsWord_dropWhile cs)
    obtain ⟨take, drop⟩ := word_append (fun d hd => List.mem_takeWhile_imp hd) ends
    have word : startsComment (c :: cs.takeWhile isWordChar) = false := by
      rw [← split, ← List.cons_append] at solid
      exact startsComment_of_append solid
    refine ⟨startsComment_append (List.cons_ne_nil _ _) word ends, ?_⟩
    rw [if_neg quote, take, drop]

/-- Where there is a token, it is taken behind what is skipped. -/
lemma of_nextToken (h : nextToken cs = .ok (some (token, rest))) :
    ∃ c after, skipTrivia cs = .ok (c :: after) ∧ takeToken c after = .ok (token, rest) := by
  unfold nextToken at h
  split at h
  · cases h
  · cases h
  · rename_i c after skipped
    split at h
    · cases h
    · rename_i taken
      cases h
      exact ⟨c, after, skipped, taken⟩

/-- The next token is the same in front of any rest that ends a word where the first one did. -/
lemma exists_nextToken (h : nextToken cs = .ok (some (token, rest))) :
    ∃ front, cs = front ++ rest ∧ ∀ rest', (EndsWord rest → EndsWord rest') →
      nextToken (front ++ rest') = .ok (some (token, rest')) := by
  obtain ⟨c, after, skipped, taken⟩ := of_nextToken h
  obtain ⟨blank, comment, gap, hg, rfl⟩ := exists_gap skipped
  obtain ⟨front, rfl, anywhere⟩ := exists_takeToken comment taken
  refine ⟨gap ++ c :: front, by simp, fun rest' ends => ?_⟩
  obtain ⟨comment', taken'⟩ := anywhere rest' ends
  rw [List.append_assoc, nextToken_congr (hg.skipTrivia_append _)]
  exact nextToken_eq blank comment' taken'

/-! ## Where tokens start -/

/-- A token of the text `before ++ after`, or what looks like one, starts in front of `after`. -/
inductive TokenAt : List Char → List Char → Prop where
  | first {before : List Char} {c : Char} {after : List Char} :
    skipTrivia (before ++ c :: after) = .ok (c :: after) →
    TokenAt before (c :: after)
  | later {front : List Char} {token : Token} {before after : List Char} :
    nextToken (front ++ (before ++ after)) = .ok (some (token, before ++ after)) →
    TokenAt before after →
    TokenAt (front ++ before) after

/-- Every token starts somewhere. -/
lemma exists_tokenAt {l : Lexeme} (h : l ∈ (lex cs).1) : ∃ before after,
    cs = before ++ after ∧ TokenAt before after ∧
      nextToken after = .ok (some (l.token, l.rest)) := by
  induction n : cs.length using Nat.strongRecOn generalizing cs with
  | _ n ih =>
    subst n
    match next : nextToken cs with
    | .error fault =>
      rw [lex_of_error next] at h
      cases h
    | .ok none =>
      rw [lex_of_none next] at h
      cases h
    | .ok (some (token, rest)) =>
      rw [lex_of_some next] at h
      rcases List.mem_cons.1 h with rfl | h
      · obtain ⟨c, after, skipped, -⟩ := of_nextToken next
        obtain ⟨-, -, gap, hg, rfl⟩ := exists_gap skipped
        refine ⟨gap, c :: after, rfl, .first skipped, ?_⟩
        rw [← nextToken_congr (hg.skipTrivia_append _)]
        exact next
      · obtain ⟨before, after, e, start, found⟩ := ih _ (nextToken_length next) h rfl
        obtain ⟨front, rfl, -⟩ := exists_nextToken next
        subst e
        exact ⟨front ++ before, after, (List.append_assoc _ _ _).symm, .later next start, found⟩

/-- Gaps in front of a token do not change the tokens of a text. -/
lemma TokenAt.lex_gap {before : List Char} (h : TokenAt before after) (hg : Gap gap)
    (apart : ∀ c ∈ gap.head?, isBlank c = true) :
    (lex (before ++ (gap ++ after))).1.map Lexeme.token =
        (lex (before ++ after)).1.map Lexeme.token ∧
      (lex (before ++ (gap ++ after))).2 = (lex (before ++ after)).2 := by
  induction h with
  | @first before c after skipped =>
    obtain ⟨-, -, gap', hg', e⟩ := exists_gap skipped
    obtain rfl := List.append_cancel_right e
    have same : nextToken (before ++ (gap ++ c :: after)) = nextToken (before ++ c :: after) := by
      refine nextToken_congr ?_
      rw [hg'.skipTrivia_append, hg.skipTrivia_append, hg'.skipTrivia_append]
    rw [lex_congr same]
    exact ⟨rfl, rfl⟩
  | @later front token before after next _ ih =>
    obtain ⟨front', e, anywhere⟩ := exists_nextToken next
    obtain rfl := List.append_cancel_right e
    -- A word that ended in front of the token ends in front of the blank now.
    have ends : EndsWord (before ++ after) → EndsWord (before ++ (gap ++ after)) := by
      cases before with
      | cons c before => exact id
      | nil =>
        cases gap with
        | nil => exact id
        | cons c gap =>
          rintro - d ⟨⟩
          simp [isWordChar, apart c rfl]
    have next' := anywhere _ ends
    rw [List.append_assoc, List.append_assoc, lex_of_some next, lex_of_some next']
    exact ⟨congrArg (List.cons token) ih.1, ih.2⟩

end ConfTree.Brace
