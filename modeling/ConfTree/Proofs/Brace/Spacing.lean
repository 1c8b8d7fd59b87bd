import ConfTree.Document.Text
import ConfTree.Proofs.Brace.Gaps
import ConfTree.Proofs.Brace.Parsing

/-!
# Documents with other gaps

The reader sees nothing of a document but its tokens, and tells its errors with a line. So two texts
of the same tokens are read alike: as the same configuration, or with errors that differ in their
lines only (`read_alike`). Gaps make no tokens, wherever a token starts, so they are not seen
(`gaps_unseen`).
-/

namespace ConfTree

/-- The error without the line that a fault of brace notation is in. -/
def ConfigError.unlined : ConfigError → ConfigError
  | .unparsable format (.brace _ fault) => .unparsable format (.brace 0 fault)
  | e => e

variable {α β γ δ : Type}

/-- The outcomes are results that belong together, or errors that differ in lines only. -/
inductive Outcomes (R : α → β → Prop) : Except ConfigError α → Except ConfigError β → Prop where
  | ok {a b} : R a b → Outcomes R (.ok a) (.ok b)
  | error {e e'} : e.unlined = e'.unlined → Outcomes R (.error e) (.error e')

namespace Outcomes

variable {R : α → β → Prop} {S : γ → δ → Prop} {x : Except ConfigError α} {y : Except ConfigError β}

/-- An outcome relates to itself. -/
lemma refl (x : Except ConfigError α) : Outcomes Eq x x := by
  cases x with
  | ok a => exact .ok rfl
  | error e => exact .error rfl

/-- Related outcomes are followed by related ones. -/
lemma bind (h : Outcomes R x y) {f : α → Except ConfigError γ} {g : β → Except ConfigError δ}
    (next : ∀ a b, R a b → Outcomes S (f a) (g b)) : Outcomes S (x >>= f) (y >>= g) := by
  cases h with
  | ok related => exact next _ _ related
  | error same => exact .error same

/-- Outcomes that relate are the same but for the lines in their errors. -/
lemma mapError_eq {x y : Except ConfigError α} (h : Outcomes Eq x y) :
    x.mapError ConfigError.unlined = y.mapError ConfigError.unlined := by
  cases h with
  | ok same => rw [same]
  | error same => exact congrArg Except.error same

end Outcomes

namespace Edit

/-- On every configuration the edits have outcomes that belong together, and they leave the same
configuration behind. -/
def Parallel (R : α → β → Prop) (x : Edit α) (y : Edit β) : Prop :=
  ∀ conf, Outcomes R (x.apply conf).1 (y.apply conf).1 ∧ (x.apply conf).2 = (y.apply conf).2

namespace Parallel

variable {R : α → β → Prop} {S : γ → δ → Prop}

/-- An edit runs in parallel with itself. -/
lemma refl (x : Edit α) : Parallel Eq x x := fun _ => ⟨.refl _, rfl⟩

/-- Related results run in parallel. -/
lemma pure {a : α} {b : β} (h : R a b) : Parallel R (pure a) (pure b) := fun _ => ⟨.ok h, rfl⟩

/-- Errors that are the same but for the line run in parallel. -/
lemma throw {e e' : ConfigError} (h : e.unlined = e'.unlined) :
    Parallel R (throw e) (throw e') := fun _ => ⟨.error h, rfl⟩

/-- Edits in parallel are followed by edits in parallel. -/
lemma bind {x : Edit α} {y : Edit β} (h : Parallel R x y) {f : α → Edit γ} {g : β → Edit δ}
    (next : ∀ a b, R a b → Parallel S (f a) (g b)) : Parallel S (x >>= f) (y >>= g) := by
  intro conf
  obtain ⟨outcomes, same⟩ := h conf
  rw [apply_bind, apply_bind]
  generalize x.apply conf = p at outcomes same
  generalize y.apply conf = q at outcomes same
  obtain ⟨_, conf'⟩ := p
  obtain ⟨_, _⟩ := q
  subst same
  cases outcomes with
  | ok related => exact next _ _ related conf'
  | error lines => exact ⟨.error lines, rfl⟩

/-- The same edit goes first. -/
lemma then_ (x : Edit α) {f : α → Edit γ} {g : α → Edit δ}
    (next : ∀ a, Parallel S (f a) (g a)) : Parallel S (x >>= f) (x >>= g) :=
  (refl x).bind fun a _ h => h ▸ next a

end Parallel

end Edit

namespace Brace

open Edit

/-- The lexemes have the same tokens, in front of whatever rests. -/
def SameTokens (ls ls' : List Lexeme) : Prop := ls.map Lexeme.token = ls'.map Lexeme.token

variable {ends ends' : Nat} {fault : Option Fault} {ls ls' : List Lexeme}

/-- Only the empty list has the same tokens as the empty list. -/
lemma SameTokens.nil_left (h : SameTokens [] ls') : ls' = [] := List.map_eq_nil_iff.1 h.symm

/-- A list with the same tokens starts with the same token. -/
lemma SameTokens.cons_left {l : Lexeme} (h : SameTokens (l :: ls) ls') :
    ∃ l' rest, ls' = l' :: rest ∧ l'.token = l.token ∧ SameTokens ls rest := by
  obtain ⟨l', rest, rfl, token, tokens⟩ := List.map_eq_cons_iff.1 h.symm
  exact ⟨l', rest, rfl, token, tokens.symm⟩

/-! ## Headers -/

variable (ends ends' fault)

/-- A text is taken alike from lexemes with the same tokens. -/
lemma takeText_alike (role : Role) (h : SameTokens ls ls') :
    Outcomes (fun p q => p.1 = q.1 ∧ SameTokens p.2 q.2) (takeText ⟨ends, fault⟩ role ls)
      (takeText ⟨ends', fault⟩ role ls') := by
  cases ls with
  | nil =>
    obtain rfl := h.nil_left
    exact .error rfl
  | cons l rest =>
    obtain ⟨l', rest', rfl, token, tokens⟩ := h.cons_left
    rw [takeText, takeText, token]
    split
    · exact .ok ⟨rfl, tokens⟩
    · exact .error rfl

/-- A header is taken alike from lexemes with the same tokens. -/
lemma takeHeader_alike (h : SameTokens ls ls') :
    Outcomes (fun p q => p.1 = q.1 ∧ SameTokens p.2 q.2) (takeHeader ⟨ends, fault⟩ ls)
      (takeHeader ⟨ends', fault⟩ ls') := by
  have name := takeText_alike ends ends' fault .name h
  unfold takeHeader
  generalize takeText ⟨ends, fault⟩ .name ls = x at name ⊢
  generalize takeText ⟨ends', fault⟩ .name ls' = y at name ⊢
  cases name with
  | error same => exact .error same
  | @ok p q related =>
    obtain ⟨text, rest⟩ := p
    obtain ⟨_, rest'⟩ := q
    obtain ⟨rfl, tokens⟩ := related
    cases rest with
    | nil =>
      obtain rfl := tokens.nil_left
      cases fault with
      | none => exact .ok ⟨rfl, tokens⟩
      | some fault => exact .error rfl
    | cons l rest =>
      obtain ⟨l', rest', rfl, token, behind⟩ := tokens.cons_left
      have value := takeText_alike ends ends' fault .value behind
      simp only [token]
      split
      · generalize takeText ⟨ends, fault⟩ .value rest = x at value ⊢
        generalize takeText ⟨ends', fault⟩ .value rest' = y at value ⊢
        cases value with
        | error same => exact .error same
        | ok related => exact .ok ⟨by rw [related.1], related.2⟩
      · exact .ok ⟨rfl, tokens⟩

/-! ## Entries -/

variable {ends ends' fault}

/-- A name is checked alike wherever it stands. -/
lemma checkName_alike (rest rest' : List Char) (name : String) :
    Parallel Eq (checkName ⟨ends, fault⟩ rest name) (checkName ⟨ends', fault⟩ rest' name) := by
  unfold checkName
  split
  · exact .pure rfl
  · exact .throw rfl

/-- The entries of open sections are read alike from the same tokens. -/
lemma readEntries_alike (opened : List NodeId) (h : SameTokens ls ls') :
    Parallel SameTokens (readEntries ⟨ends, fault⟩ opened ls)
      (readEntries ⟨ends', fault⟩ opened ls') := by
  induction n : ls.length using Nat.strongRecOn generalizing opened ls ls' with
  | _ n ih =>
    subst n
    cases opened with
    | nil =>
      rw [readEntries, readEntries]
      exact .pure h
    | cons current outer =>
      cases ls with
      | nil =>
        obtain rfl := h.nil_left
        rw [readEntries, readEntries]
        exact .throw rfl
      | cons l rest =>
        have header := takeHeader_alike ends ends' fault h
        obtain ⟨l', rest', rfl, token, tokens⟩ := h.cons_left
        by_cases closing : l.token = .closing
        · rw [readEntries_closing closing, readEntries_closing (token.trans closing)]
          exact ih _ (Nat.lt_succ_self _) outer tokens rfl
        have closing' : l'.token ≠ .closing := fun e => closing (token.symm.trans e)
        -- Both readers take the same header, and go on behind it.
        generalize taken : takeHeader ⟨ends, fault⟩ (l :: rest) = x at header
        generalize taken' : takeHeader ⟨ends', fault⟩ (l' :: rest') = y at header
        cases header with
        | error same =>
          rw [readEntries_of_error closing taken, readEntries_of_error closing' taken']
          exact .throw same
        | @ok p q related =>
          obtain ⟨header, behind⟩ := p
          obtain ⟨_, behind'⟩ := q
          obtain ⟨rfl, tokens⟩ := related
          have shorter := takeHeader_length taken
          cases behind with
          | nil =>
            obtain rfl := SameTokens.nil_left tokens
            rw [readEntries_of_last closing taken, readEntries_of_last closing' taken']
            cases fault with
            | some fault => exact .throw rfl
            | none =>
              refine (checkName_alike _ _ _).bind fun _ _ _ => ?_
              exact .then_ _ fun _ => .throw rfl
          | cons next after =>
            obtain ⟨next', after', rfl, mark, left⟩ := SameTokens.cons_left tokens
            rw [readEntries_of_header closing taken, readEntries_of_header closing' taken', mark]
            refine (checkName_alike _ _ _).bind fun _ _ _ => ?_
            split
            · refine .then_ _ fun id => ih _ ?_ _ left rfl
              exact Nat.lt_trans (Nat.lt_succ_self _) shorter
            · exact .then_ _ fun _ => ih _ shorter _ tokens rfl

/-! ## Documents -/

/-- Whether anything is left is checked alike. -/
lemma checkEnd_alike (h : SameTokens ls ls') :
    Outcomes Eq (checkEnd ⟨ends, fault⟩ ls) (checkEnd ⟨ends', fault⟩ ls') := by
  cases ls with
  | nil =>
    obtain rfl := h.nil_left
    cases fault with
    | none => exact .ok rfl
    | some fault => exact .error rfl
  | cons l rest =>
    obtain ⟨l', rest', rfl, token, -⟩ := h.cons_left
    rw [checkEnd, checkEnd, token]
    exact .error rfl

/-- Texts of the same tokens are read alike. -/
lemma read_alike {s s' : String} (tokens : SameTokens (lex s.toList).1 (lex s'.toList).1)
    (faults : (lex s.toList).2 = (lex s'.toList).2) :
    Outcomes Eq (Brace.read s) (Brace.read s') := by
  simp only [Brace.read]
  generalize lineEnds s.toList = ends
  generalize lineEnds s'.toList = ends'
  generalize lex s.toList = p at tokens faults ⊢
  generalize lex s'.toList = q at tokens faults ⊢
  obtain ⟨ls, fault⟩ := p
  obtain ⟨ls', _⟩ := q
  subst faults
  refine (takeHeader_alike _ _ _ tokens).bind ?_
  rintro ⟨header, rest⟩ ⟨_, rest'⟩ ⟨rfl, tokens⟩
  cases rest with
  | nil =>
    obtain rfl := SameTokens.nil_left tokens
    exact .error rfl
  | cons l rest =>
    obtain ⟨l', rest', rfl, token, tokens⟩ := SameTokens.cons_left tokens
    simp only [token]
    split
    · exact .error rfl
    · have body : Parallel SameTokens (do
          Edit.setValue Configuration.root header.value
          readEntries ⟨ends, fault⟩ [Configuration.root] rest : Edit (List Lexeme)) (do
          Edit.setValue Configuration.root header.value
          readEntries ⟨ends', fault⟩ [Configuration.root] rest' : Edit (List Lexeme)) :=
        .then_ _ fun _ => readEntries_alike _ tokens
      obtain ⟨outcomes, same⟩ := body (.withRoot header.name)
      refine outcomes.bind fun _ _ left => (checkEnd_alike left).bind fun _ _ _ => ?_
      rw [same]
      exact .ok rfl

/-- A gap is skipped in front of any text, which then goes on, or fails, as it does without the gap.
Every token of a document starts somewhere, and there a gap that begins with a blank can be put in
front of it: the same configuration is read, or the same error is told, but for its line. -/
theorem gaps_unseen {gap : List Char} (hg : Gap gap) :
    (∀ cs, skipTrivia (gap ++ cs) = skipTrivia cs) ∧
      (∀ cs, ∀ l ∈ (lex cs).1, ∃ before after, cs = before ++ after ∧ TokenAt before after ∧
        nextToken after = .ok (some (l.token, l.rest))) ∧
      ∀ before after, TokenAt before after → (∀ c ∈ gap.head?, Text.isBlank c = true) →
        (Format.brace.read (String.ofList (before ++ (gap ++ after)))).mapError
            ConfigError.unlined =
          (Format.brace.read (String.ofList (before ++ after))).mapError ConfigError.unlined := by
  refine ⟨hg.skipTrivia_append, fun cs l => exists_tokenAt, ?_⟩
  intro before after start apart
  have same := start.lex_gap hg apart
  have alike : Outcomes Eq (Brace.read (String.ofList (before ++ (gap ++ after))))
      (Brace.read (String.ofList (before ++ after))) := by
    refine read_alike ?_ ?_
    · rw [String.toList_ofList, String.toList_ofList]
      exact same.1
    · rw [String.toList_ofList, String.toList_ofList]
      exact same.2
  refine Outcomes.mapError_eq (alike.bind fun conf _ equal => ?_)
  rw [equal]
  exact .refl _

/-- A comment with a brace in it, and two whose stars and slashes stand close, right behind a word.
-/
theorem gaps_unseen_word :
    let gap := " // a\x7d\n/***/\t/*/ */".toList
    let before := "r".toList
    let after := "\x7b a=1 \x7d".toList
    Gap gap ∧ (∀ c ∈ gap.head?, Text.isBlank c = true) ∧ TokenAt before after ∧
      skipTrivia (gap ++ after) = skipTrivia after ∧
      (Format.brace.read (String.ofList (before ++ (gap ++ after)))).mapError
          ConfigError.unlined =
        (Format.brace.read (String.ofList (before ++ after))).mapError ConfigError.unlined := by
  intro gap before after
  have hg : Gap gap :=
    .blank (by decide) (@Gap.lineComment " a\x7d".toList _ (by decide)
      (@Gap.blockComment ['*'] _ (by decide) (.blank (by decide)
        (@Gap.blockComment ['/', ' '] _ (by decide) .nil))))
  have apart : ∀ c ∈ gap.head?, Text.isBlank c = true := by
    rintro c ⟨⟩
    decide
  have start : TokenAt before after :=
    @TokenAt.later before (.word "r") [] after (by rfl) (.first (by rfl))
  exact ⟨hg, apart, start, (gaps_unseen hg).1 after, (gaps_unseen hg).2.2 before after start apart⟩

end Brace

end ConfTree
