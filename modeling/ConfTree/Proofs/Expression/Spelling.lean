import ConfTree.Expression.Token
import Mathlib.Data.List.Chain
import Mathlib.Tactic.Lemma

/-!
# Spellings of tokens

`Spells` says which texts have given tokens: each token in one of its spellings, with blanks before
and behind it or not. The lexer finds the tokens of such a text, as long as no token would run into
the next one (`Spells.tokenize_eq`).
-/

namespace ConfTree.Expression

open ConfTree.Text

/-- The characters stand for the text between the quotes. -/
inductive Escapes (quote : Char) : List Char → List Char → Prop where
  | nil : Escapes quote [] []
  | plain {c s cs} :
    c ≠ quote →
    c ≠ '\\' →
    Escapes quote s cs →
    Escapes quote (c :: s) (c :: cs)
  | newline {s cs} :
    Escapes quote s cs →
    Escapes quote ('\n' :: s) ('\\' :: 'n' :: cs)
  | tab {s cs} :
    Escapes quote s cs →
    Escapes quote ('\t' :: s) ('\\' :: 't' :: cs)
  | backslash {c s cs} :
    c ≠ 'n' →
    c ≠ 't' →
    Escapes quote s cs →
    Escapes quote (c :: s) ('\\' :: c :: cs)

/-- The characters are a spelling of the token. -/
inductive Token.Spelled : Token → List Char → Prop where
  | word {w : String} :
    w.toList ≠ [] →
    (∀ c ∈ w.toList, isWordChar c = true) →
    Spelled (.word w) w.toList
  | quoted {quote : Char} {s : String} {cs : List Char} :
    quote = '\'' ∨ quote = '"' →
    Escapes quote s.toList cs →
    Spelled (.quoted s) (quote :: (cs ++ [quote]))
  | plus : Spelled .plus ['+']
  | minus : Spelled .minus ['-']
  | star : Spelled .star ['*']
  | slash : Spelled .slash ['/']
  | percent : Spelled .percent ['%']
  | less : Spelled .less ['<']
  | atMost : Spelled .atMost ['<', '=']
  | greater : Spelled .greater ['>']
  | atLeast : Spelled .atLeast ['>', '=']
  | equal : Spelled .equal ['=', '=']
  | unequal : Spelled .unequal ['!', '=']
  | both : Spelled .both ['&', '&']
  | either : Spelled .either ['|', '|']
  | bang : Spelled .bang ['!']
  | leftParen : Spelled .leftParen ['(']
  | rightParen : Spelled .rightParen [')']
  | question : Spelled .question ['?']
  | semicolon : Spelled .semicolon [';']

/-- The text is made of spellings of the tokens, in order, and of blanks. -/
inductive Spells : List Token → List Char → Prop where
  | nil : Spells [] []
  | blank {c ts cs} :
    isBlank c = true →
    Spells ts cs →
    Spells ts (c :: cs)
  | token {t ts ds cs} :
    t.Spelled ds →
    Spells ts cs →
    Spells (t :: ts) (ds ++ cs)

/-- Texts of tokens stand one behind the other. -/
lemma Spells.append {ts us : List Token} {cs ds : List Char} (h : Spells ts cs)
    (h' : Spells us ds) : Spells (ts ++ us) (cs ++ ds) := by
  induction h with
  | nil => exact h'
  | blank blank _ ih => exact .blank blank ih
  | token spelled _ ih =>
    rw [List.cons_append, List.append_assoc]
    exact .token spelled ih

/-- A spelling of a token is a text of it. -/
lemma Token.Spelled.spells {t : Token} {ds : List Char} (h : t.Spelled ds) : Spells [t] ds := by
  have text : Spells [t] (ds ++ []) := .token h .nil
  rwa [List.append_nil] at text

/-! ## Lexing -/

/-- Two tokens that would be read as one without a blank between them. -/
def Token.runsInto : Token → Token → Bool
  | .word _, .word _ => true
  | .less, .equal => true
  | .greater, .equal => true
  | .bang, .equal => true
  | _, _ => false

/-- A character that the token would take up from the text behind it. -/
def Token.extendedBy : Token → Char → Bool
  | .word _, c => isWordChar c
  | .less, c => c == '='
  | .greater, c => c == '='
  | .bang, c => c == '='
  | _, _ => false

/-- The escapes of a text are undone up to the closing quote. -/
lemma takeQuoted_escapes {quote : Char} {s cs : List Char} (h : Escapes quote s cs)
    (mark : quote = '\'' ∨ quote = '"') (rest : List Char) :
    takeQuoted quote (cs ++ quote :: rest) = some (s, rest) := by
  induction h with
  | nil => obtain rfl | rfl := mark <;> rfl
  | @plain c s cs other noEscape _ ih =>
    rw [List.cons_append, takeQuoted.eq_3 _ _ _ (by rintro _ _ rfl; contradiction), if_neg other,
      if_neg noEscape, ih]
    rfl
  | newline _ ih =>
    rw [List.cons_append, List.cons_append, takeQuoted, ih]
    rfl
  | tab _ ih =>
    rw [List.cons_append, List.cons_append, takeQuoted, ih]
    rfl
  | backslash noNewline noTab _ ih =>
    rw [List.cons_append, List.cons_append, takeQuoted, ih]
    simp [unescape, noNewline, noTab]

/-- A spelling begins with a character that is not blank. -/
lemma Token.Spelled.exists_cons {t : Token} {ds : List Char} (h : t.Spelled ds) :
    ∃ c cs, ds = c :: cs ∧ isBlank c = false := by
  cases h with
  | @word w filled chars =>
    cases eq : w.toList with
    | nil => exact absurd eq filled
    | cons c cs =>
      have char := chars c (by rw [eq]; exact List.mem_cons_self)
      simp only [isWordChar, Bool.and_eq_true, Bool.not_eq_true'] at char
      exact ⟨c, cs, rfl, char.1⟩
  | quoted mark _ => obtain rfl | rfl := mark <;> exact ⟨_, _, rfl, rfl⟩
  | _ => exact ⟨_, _, rfl, rfl⟩

/-- A word goes up to the first character that is not of words. -/
lemma takeToken_word {c : Char} (h : isWordChar c = true) (cs : List Char) :
    takeToken c cs =
      .ok (.word (String.ofList (c :: cs.takeWhile isWordChar)), cs.dropWhile isWordChar) := by
  have noQuote : (decide (c = '\'') || decide (c = '"')) = false := by
    rw [Bool.or_eq_false_iff, decide_eq_false_iff_not, decide_eq_false_iff_not]
    constructor <;> rintro rfl <;> cases h
  unfold takeToken
  split
  all_goals first
    | cases h
    | simp only [noQuote, Bool.false_eq_true, if_false]

/-- The short token is taken if the second character of the long one does not follow. -/
lemma takeSecond_short {second : Char} {long short : Token} {rest : List Char}
    (apart : ∀ d ∈ rest.head?, (d == second) = false) :
    takeSecond second long short rest = (short, rest) := by
  cases rest with
  | nil => rfl
  | cons d rest => exact if_neg (beq_eq_false_iff_ne.1 (apart d rfl))

/-- The lexer takes a spelling whole and nothing behind it. -/
lemma takeToken_spelled {t : Token} {c : Char} {cs rest : List Char} (h : t.Spelled (c :: cs))
    (apart : ∀ d ∈ rest.head?, t.extendedBy d = false) :
    takeToken c (cs ++ rest) = .ok (t, rest) := by
  generalize whole : c :: cs = ds at h
  cases h with
  | @word w filled chars =>
    have char := chars c (whole ▸ List.mem_cons_self)
    have others : ∀ d ∈ cs, isWordChar d = true := fun d member =>
      chars d (whole ▸ List.mem_cons_of_mem c member)
    rw [takeToken_word char, List.takeWhile_append_of_pos others,
      List.dropWhile_append_of_pos others]
    cases rest with
    | nil =>
      rw [List.takeWhile_nil, List.dropWhile_nil, List.append_nil, whole, String.ofList_toList]
    | cons d rest =>
      have stop : isWordChar d = false := apart d rfl
      rw [List.takeWhile_cons_of_neg (by simp [stop]), List.dropWhile_cons_of_neg (by simp [stop]),
        List.append_nil, whole, String.ofList_toList]
  | @quoted quote s es mark escapes =>
    obtain ⟨rfl, rfl⟩ := List.cons.inj whole
    have text := takeQuoted_escapes escapes mark rest
    rw [List.append_assoc, List.singleton_append]
    obtain rfl | rfl := mark <;> simp [takeToken, text]
  | less =>
    cases whole
    exact congrArg Except.ok (takeSecond_short apart)
  | greater =>
    cases whole
    exact congrArg Except.ok (takeSecond_short apart)
  | bang =>
    cases whole
    exact congrArg Except.ok (takeSecond_short apart)
  | _ =>
    cases whole
    rfl

/-- Nothing that begins the next token extends a token that it does not run into. -/
lemma extendedBy_spelled {t u : Token} {c : Char} {cs : List Char} (apart : t.runsInto u = false)
    (h : u.Spelled (c :: cs)) : t.extendedBy c = false := by
  generalize whole : c :: cs = ds at h
  cases h with
  | @word w filled chars =>
    have char := chars c (whole ▸ List.mem_cons_self)
    have noEquals : c ≠ '=' := by
      rintro rfl
      cases char
    cases t with
    | word => cases apart
    | less | greater | bang => exact beq_eq_false_iff_ne.2 noEquals
    | _ => rfl
  | quoted mark =>
    obtain ⟨rfl, -⟩ := List.cons.inj whole
    obtain rfl | rfl := mark <;> cases t <;> rfl
  | equal =>
    cases whole
    cases t <;> first | rfl | cases apart
  | _ =>
    cases whole
    cases t <;> rfl

/-- No token goes on with a blank. -/
lemma extendedBy_blank {c : Char} (h : isBlank c = true) (t : Token) : t.extendedBy c = false := by
  cases t with
  | word => simp [Token.extendedBy, isWordChar, h]
  | less | greater | bang =>
    refine beq_eq_false_iff_ne.2 ?_
    rintro rfl
    cases h
  | _ => rfl

/-- No token runs into the next one. -/
def Flows (ts : List Token) : Prop := ts.IsChain fun t u => t.runsInto u = false

/-- What follows a token in a text does not extend it. -/
lemma Spells.apart {ts : List Token} {cs : List Char} (h : Spells ts cs) {t : Token}
    (flows : Flows (t :: ts)) : ∀ c ∈ cs.head?, t.extendedBy c = false := by
  rintro c head
  cases h with
  | nil => cases head
  | blank blank _ =>
    cases head
    exact extendedBy_blank blank t
  | token spelled _ =>
    obtain ⟨d, ds, rfl, -⟩ := spelled.exists_cons
    cases head
    exact extendedBy_spelled (List.isChain_cons_cons.1 flows).1 spelled

/-- A text of tokens that do not run into one another is read as these tokens. -/
lemma Spells.tokenize_eq {ts : List Token} {cs : List Char} (h : Spells ts cs) (flows : Flows ts) :
    tokenize cs = .ok ts := by
  induction h with
  | nil => rw [tokenize]
  | blank blank _ ih => rw [tokenize, if_pos blank, ih flows]
  | @token t ts ds cs spelled tail ih =>
    obtain ⟨d, ds, rfl, noBlank⟩ := spelled.exists_cons
    have take := takeToken_spelled spelled (tail.apart flows)
    have rest := ih flows.of_cons
    rw [List.cons_append, tokenize, if_neg (by simp [noBlank])]
    split
    next fault eq => cases take.symm.trans eq
    next token more eq =>
      cases take.symm.trans eq
      simp only [rest]

/-! ## Every list of tokens has a text -/

/-- Every text can be written in quotes. -/
lemma exists_escapes (s : List Char) : ∃ cs, Escapes '"' s cs := by
  induction s with
  | nil => exact ⟨[], .nil⟩
  | cons c s ih =>
    obtain ⟨cs, escapes⟩ := ih
    by_cases quote : c = '"'
    · subst c
      exact ⟨_, .backslash (by decide) (by decide) escapes⟩
    · by_cases backslash : c = '\\'
      · subst c
        exact ⟨_, .backslash (by decide) (by decide) escapes⟩
      · exact ⟨_, .plain quote backslash escapes⟩

/-- Tokens that have spellings have a text. -/
lemma exists_spells {ts : List Token} (h : ∀ t ∈ ts, ∃ ds, t.Spelled ds) : ∃ cs, Spells ts cs := by
  induction ts with
  | nil => exact ⟨[], .nil⟩
  | cons t ts ih =>
    obtain ⟨ds, spelled⟩ := h t List.mem_cons_self
    obtain ⟨cs, spells⟩ := ih fun u hu => h u (List.mem_cons_of_mem t hu)
    exact ⟨ds ++ cs, .token spelled spells⟩

end ConfTree.Expression
