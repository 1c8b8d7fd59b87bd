import ConfTree.Expression.Evaluation
import ConfTree.Proofs.Expression.Parsing
import ConfTree.Proofs.Expression.Spelling
import ConfTree.Proofs.Text.Truth

/-!
# Terms written out

`Written` says which tokens a term may be written with: an operand that binds looser than its place
stands in parentheses, and any operand may. The tokens of a phrase do not run into one another, so
that the lexer and the reader of terms take every text of these tokens back to the term.
-/

namespace ConfTree.Expression

open ConfTree.Text

/-! ## Tokens of terms -/

/-- The term has literals of the expression language only: integers without a sign, truth values and
texts. -/
def Term.Plain : Term → Prop
  | .literal (.int i) => 0 ≤ i ∧ i ≤ IntegerRange.signed64.greatest
  | .literal (.float _) => False
  | .literal (.bool _) => True
  | .literal (.text _) => True
  | .negate t => t.Plain
  | .not t => t.Plain
  | .both l r => l.Plain ∧ r.Plain
  | .either l r => l.Plain ∧ r.Plain
  | .binary _ l r => l.Plain ∧ r.Plain
  | .choice c l r => c.Plain ∧ l.Plain ∧ r.Plain

/-- The term is written with the tokens at a place for phrases of the level. -/
inductive Written : Level → Term → List Token → Prop where
  | integer {n : Nat} :
    n ≤ IntegerRange.signed64.greatest →
    Written .primary (.literal (.int n)) [.word (integerText n)]
  | truth (b : Bool) : Written .primary (.literal (.bool b)) [.word (truthText b)]
  | text (s : String) : Written .primary (.literal (.text s)) [.quoted s]
  | negate {t ts} :
    Written .sign t ts →
    Written .sign (.negate t) (.minus :: ts)
  | not {t ts} :
    Written .sign t ts →
    Written .sign (.not t) (.bang :: ts)
  | chained {l k a b ts us} {mark : Token} {op : Term → Term → Term} :
    l.Over k →
    l.operator? mark = some op →
    Written l a ts →
    Written k b us →
    Written l (op a b) (ts ++ mark :: us)
  | compared {a b ts us} {mark : Token} {op : Term → Term → Term} :
    Level.comparison.operator? mark = some op →
    Written .sum a ts →
    Written .sum b us →
    Written .comparison (op a b) (ts ++ mark :: us)
  | choice {c a b cs ts us} :
    Written .either c cs →
    Written .either a ts →
    Written .either b us →
    Written .primary (.choice c a b)
      (.leftParen :: .question :: (cs ++ .semicolon :: (ts ++ .semicolon :: (us ++ [.rightParen]))))
  | enclosed {t ts} :
    Written .either t ts →
    Written .primary t (.leftParen :: (ts ++ [.rightParen]))
  | tighter {l k t ts} :
    l.rank ≤ k.rank →
    Written k t ts →
    Written l t ts

/-- The word for a truth value stands for it. -/
lemma ofWord_truthText (b : Bool) : Value.ofWord (truthText b) = .bool b := by
  obtain ⟨isTrue, isFalse⟩ := sameName_truthText b
  rw [Value.ofWord, isTrue, isFalse]
  cases b <;> rfl

/-- A word of digits is the number that it spells, or a text if the number is too large. -/
lemma ofWord_digits {w : String} (filled : w.toList ≠ [])
    (digits : ∀ c ∈ w.toList, c.isDigit = true) :
    Value.ofWord w =
      if Nat.ofDigitChars 10 w.toList 0 ≤ IntegerRange.signed64.greatest
      then .int (Nat.ofDigitChars 10 w.toList 0) else .text w := by
  obtain ⟨c, hc⟩ := List.exists_mem_of_ne_nil _ filled
  obtain ⟨noTrue, noFalse⟩ := sameName_of_wordless hc (wordless_of_isDigit (digits c hc))
  have noPoint : w.toList.contains '.' = false := by
    refine Bool.eq_false_iff.2 fun point => ?_
    have digit := digits '.' (List.contains_iff_mem.1 point)
    cases digit
  have read : IntegerRange.signed64.read w.toList =
      if Nat.ofDigitChars 10 w.toList 0 ≤ IntegerRange.signed64.greatest
      then .ok (Nat.ofDigitChars 10 w.toList 0) else .error .tooLarge :=
    (read_digits filled digits).trans (readDigits_eq (by decide) (by decide) digits)
  simp only [Value.ofWord, noTrue, noFalse, noPoint, List.all_eq_true.2 digits, read, if_true,
    if_false, Bool.false_eq_true, Bool.false_and]
  by_cases fits : Nat.ofDigitChars 10 w.toList 0 ≤ IntegerRange.signed64.greatest
  · simp only [if_pos fits]
  · simp only [if_neg fits]

/-- A number of the range is read from its digits. -/
lemma ofWord_integerText {n : Nat} (bound : n ≤ IntegerRange.signed64.greatest) :
    Value.ofWord (integerText n) = .int n := by
  have digits : ∀ c ∈ (toString n).toList, c.isDigit = true := fun c => isDigit_of_mem_toString
  show Value.ofWord (toString n) = _
  rw [ofWord_digits (toList_toString_ne_nil n) digits, ofDigitChars_toString, if_pos bound]

/-! ## What is written is a phrase -/

/-- A phrase is one of the next looser level. -/
lemma Phrase.exists_looser {k : Level} (p : Phrase k) (loose : 0 < k.rank) :
    ∃ (l : Level) (q : Phrase l), l.rank + 1 = k.rank ∧ q.tokens = p.tokens ∧ q.term = p.term := by
  cases k with
  | either => cases loose
  | both => exact ⟨.either, .chain .either p .done, rfl, List.append_nil _, rfl⟩
  | comparison => exact ⟨.both, .chain .both p .done, rfl, List.append_nil _, rfl⟩
  | sum => exact ⟨.comparison, .alone p, rfl, rfl, rfl⟩
  | product => exact ⟨.sum, .chain .sum p .done, rfl, List.append_nil _, rfl⟩
  | sign => exact ⟨.product, .chain .product p .done, rfl, List.append_nil _, rfl⟩
  | primary => exact ⟨.sign, .primary p, rfl, rfl, rfl⟩

/-- Levels of the same rank are the same. -/
lemma Level.rank_injective {l k : Level} (eq : l.rank = k.rank) : l = k := by
  cases l <;> cases k <;> first | rfl | cases eq

/-- A phrase is one of every looser level. -/
lemma Phrase.exists_loose {l k : Level} (p : Phrase k) (rank : l.rank ≤ k.rank) :
    ∃ q : Phrase l, q.tokens = p.tokens ∧ q.term = p.term := by
  induction n : k.rank - l.rank generalizing k with
  | zero =>
    obtain rfl : l = k := Level.rank_injective (by omega)
    exact ⟨p, rfl, rfl⟩
  | succ n ih =>
    obtain ⟨m, q, next, tokens, term⟩ := p.exists_looser (by omega)
    obtain ⟨r, tokens', term'⟩ := ih q (by omega) (by omega)
    exact ⟨r, tokens'.trans tokens, term'.trans term⟩

/-- A chain goes on with one more operand. -/
lemma Chain.exists_snoc {l k : Level} {mark : Token} {op : Term → Term → Term}
    (found : l.operator? mark = some op) (q : Phrase k) : (c : Chain l k) →
    ∃ d : Chain l k, d.tokens = c.tokens ++ mark :: q.tokens ∧
      ∀ left, d.termFrom left = op (c.termFrom left) q.term
  | .done => ⟨.more mark op found q .done, by simp [Chain.tokens], fun left => rfl⟩
  | .more mark' op' found' operand others => by
    obtain ⟨d, tokens, term⟩ := others.exists_snoc found q
    exact ⟨.more mark' op' found' operand d, by simp [Chain.tokens, tokens], fun left => term _⟩

/-- The grammar derives the tokens from the level, and the derivation gives the term. -/
def Level.Derives (l : Level) (ts : List Token) (t : Term) : Prop :=
  ∃ p : Phrase l, p.tokens = ts ∧ p.term = t

namespace Level.Derives

variable {l k : Level} {a b : Term} {ts us : List Token} {mark : Token} {op : Term → Term → Term}

/-- A word derives its value. -/
lemma word (w : String) : Level.primary.Derives [.word w] (.literal (.ofWord w)) :=
  ⟨.word w, rfl, rfl⟩

/-- What derives at a closer level derives at a looser one. -/
lemma looser (h : k.Derives ts a) (rank : l.rank ≤ k.rank) : l.Derives ts a := by
  obtain ⟨p, rfl, rfl⟩ := h
  exact p.exists_loose rank

/-- Terms that derive are joined by an operator of their level. -/
lemma chained (above : l.Over k) (found : l.operator? mark = some op) (h : l.Derives ts a)
    (h' : k.Derives us b) : l.Derives (ts ++ mark :: us) (op a b) := by
  obtain ⟨p, rfl, rfl⟩ := h
  obtain ⟨q, rfl, rfl⟩ := h'
  cases p with
  | chain above' first others =>
    cases above.unique above'
    obtain ⟨d, tokens, term⟩ := others.exists_snoc found q
    exact ⟨.chain above first d, by rw [Phrase.tokens, tokens, Phrase.tokens, List.append_assoc],
      by rw [Phrase.term, term, Phrase.term]⟩
  | _ => cases above

/-- Sums that derive are compared. -/
lemma compared (found : Level.comparison.operator? mark = some op) (h : Level.sum.Derives ts a)
    (h' : Level.sum.Derives us b) : Level.comparison.Derives (ts ++ mark :: us) (op a b) := by
  obtain ⟨p, rfl, rfl⟩ := h
  obtain ⟨q, rfl, rfl⟩ := h'
  exact ⟨.compared _ _ found p q, rfl, rfl⟩

end Level.Derives

/-- What a term is written with derives from the grammar, and the derivation gives the term. -/
lemma Written.derives {l : Level} {t : Term} {ts : List Token} (h : Written l t ts) :
    l.Derives ts t := by
  induction h with
  | @integer n bound =>
    exact ⟨.word (integerText n), rfl, by rw [Phrase.term, ofWord_integerText bound]⟩
  | truth b => exact ⟨.word (truthText b), rfl, by rw [Phrase.term, ofWord_truthText]⟩
  | text s => exact ⟨.quoted s, rfl, rfl⟩
  | negate _ ih =>
    obtain ⟨p, rfl, rfl⟩ := ih
    exact ⟨.minus p, rfl, rfl⟩
  | not _ ih =>
    obtain ⟨p, rfl, rfl⟩ := ih
    exact ⟨.bang p, rfl, rfl⟩
  | chained above found _ _ ih₁ ih₂ => exact ih₁.chained above found ih₂
  | compared found _ _ ih₁ ih₂ => exact ih₁.compared found ih₂
  | choice _ _ _ ih₁ ih₂ ih₃ =>
    obtain ⟨c, rfl, rfl⟩ := ih₁
    obtain ⟨p, rfl, rfl⟩ := ih₂
    obtain ⟨q, rfl, rfl⟩ := ih₃
    exact ⟨.choice c p q, rfl, rfl⟩
  | enclosed _ ih =>
    obtain ⟨p, rfl, rfl⟩ := ih
    exact ⟨.enclosed p, rfl, rfl⟩
  | tighter rank _ ih => exact ih.looser rank

/-- In parentheses a term stands at any place. -/
lemma Written.anywhere {l k : Level} {t : Term} {ts : List Token} (h : Written k t ts) :
    Written l t (.leftParen :: (ts ++ [.rightParen])) :=
  .tighter (by cases l <;> decide) (.enclosed (.tighter (Nat.zero_le _) h))

/-- The tokens of an operator. -/
def Operator.token : Operator → Token
  | .add => .plus
  | .sub => .minus
  | .mul => .star
  | .div => .slash
  | .rem => .percent
  | .less => .less
  | .atMost => .atMost
  | .greater => .greater
  | .atLeast => .atLeast
  | .equal => .equal
  | .unequal => .unequal

/-- An operator between two terms in parentheses. -/
lemma Written.binary {a b : Term} {ts us : List Token} (op : Operator) (h : Written .either a ts)
    (h' : Written .either b us) : Written .either (.binary op a b)
      ((.leftParen :: (ts ++ [.rightParen])) ++
        op.token :: (.leftParen :: (us ++ [.rightParen]))) := by
  cases op with
  | add => exact .tighter (Nat.zero_le _) (.chained .sum rfl h.anywhere h'.anywhere)
  | sub => exact .tighter (Nat.zero_le _) (.chained .sum rfl h.anywhere h'.anywhere)
  | mul => exact .tighter (Nat.zero_le _) (.chained .product rfl h.anywhere h'.anywhere)
  | div => exact .tighter (Nat.zero_le _) (.chained .product rfl h.anywhere h'.anywhere)
  | rem => exact .tighter (Nat.zero_le _) (.chained .product rfl h.anywhere h'.anywhere)
  | _ => exact .tighter (Nat.zero_le _) (.compared rfl h.anywhere h'.anywhere)

/-- Every plain term can be written, with parentheses around each of its operands at the worst. -/
lemma Term.Plain.exists_written : {t : Term} → t.Plain → ∃ ts, Written .either t ts
  | .literal (.int i), h => by
    obtain ⟨n, rfl⟩ := Int.eq_ofNat_of_zero_le h.1
    exact ⟨_, .tighter (Nat.zero_le _) (.integer h.2)⟩
  | .literal (.bool b), _ => ⟨_, .tighter (Nat.zero_le _) (.truth b)⟩
  | .literal (.text s), _ => ⟨_, .tighter (Nat.zero_le _) (.text s)⟩
  | .negate t, h => by
    obtain ⟨ts, written⟩ := exists_written (t := t) h
    exact ⟨_, .tighter (Nat.zero_le _) (.negate written.anywhere)⟩
  | .not t, h => by
    obtain ⟨ts, written⟩ := exists_written (t := t) h
    exact ⟨_, .tighter (Nat.zero_le _) (.not written.anywhere)⟩
  | .both l r, h => by
    obtain ⟨ts, left⟩ := exists_written h.1
    obtain ⟨us, right⟩ := exists_written h.2
    exact ⟨_, .tighter (Nat.zero_le _)
      (.chained .both (rfl : Level.both.operator? .both = some .both) left.anywhere right.anywhere)⟩
  | .either l r, h => by
    obtain ⟨ts, left⟩ := exists_written h.1
    obtain ⟨us, right⟩ := exists_written h.2
    exact ⟨_, .chained .either (rfl : Level.either.operator? .either = some .either) left.anywhere
      right.anywhere⟩
  | .binary op l r, h => by
    obtain ⟨ts, left⟩ := exists_written h.1
    obtain ⟨us, right⟩ := exists_written h.2
    exact ⟨_, .binary op left right⟩
  | .choice c l r, h => by
    obtain ⟨cs, condition⟩ := exists_written h.1
    obtain ⟨ts, left⟩ := exists_written h.2.1
    obtain ⟨us, right⟩ := exists_written h.2.2
    exact ⟨_, .tighter (Nat.zero_le _) (.choice condition left right)⟩

/-! ## The tokens of a phrase do not run into one another -/

/-- The token is a word. -/
def Token.isWord : Token → Bool
  | .word _ => true
  | _ => false

/-- An operator is no word. -/
lemma isWord_of_operator {l : Level} {t : Token} {op : Term → Term → Term}
    (h : l.operator? t = some op) : t.isWord = false := by
  cases t <;> first | rfl | cases l <;> cases h

/-- Only words run into what starts an operand. -/
lemma runsInto_starts {t u : Token} (word : t.isWord = false) (starts : u.starts = true) :
    t.runsInto u = false := by
  cases t with
  | word => cases word
  | less | greater | bang => cases u <;> first | rfl | cases starts
  | _ => rfl

/-- A token other than a word does not run into a phrase. -/
lemma Phrase.flows_cons {l : Level} (p : Phrase l) {t : Token} {rest : List Token}
    (word : t.isWord = false) (flows : Flows (p.tokens ++ rest)) :
    Flows (t :: (p.tokens ++ rest)) := by
  obtain ⟨u, us, eq, starts⟩ := p.exists_cons
  rw [eq] at flows ⊢
  exact List.isChain_cons_cons.2 ⟨runsInto_starts word starts, flows⟩

/-- The last token of an operand runs into no token other than a word. -/
lemma flows_cons_of_ends {t : Token} {rest : List Token}
    (ends : ∀ u : Token, u.isWord = false → t.runsInto u = false) (flows : Flows rest)
    (other : ∀ u ∈ rest.head?, u.isWord = false) : Flows (t :: rest) := by
  cases rest with
  | nil => exact .singleton t
  | cons u rest => exact List.isChain_cons_cons.2 ⟨ends u (other u rfl), flows⟩

/-- A closing parenthesis does not run into what is no word. -/
lemma flows_rightParen {rest : List Token} (flows : Flows rest)
    (other : ∀ u ∈ rest.head?, u.isWord = false) : Flows (.rightParen :: rest) :=
  flows_cons_of_ends (fun _ _ => rfl) flows other

/-- A closing parenthesis is no word. -/
lemma head?_rightParen {rest : List Token} :
    ∀ u ∈ (Token.rightParen :: rest).head?, u.isWord = false := by
  rintro _ ⟨⟩
  rfl

/-- A semicolon is no word. -/
lemma head?_semicolon {rest : List Token} :
    ∀ u ∈ (Token.semicolon :: rest).head?, u.isWord = false := by
  rintro _ ⟨⟩
  rfl

/-- No word stands behind an operand of a chain. -/
lemma Chain.head?_append {l k : Level} (c : Chain l k) {rest : List Token}
    (other : ∀ u ∈ rest.head?, u.isWord = false) :
    ∀ u ∈ (c.tokens ++ rest).head?, u.isWord = false := by
  cases c with
  | done => exact other
  | more mark op found operand others =>
    rintro _ ⟨⟩
    exact isWord_of_operator found

mutual

/-- The tokens of a phrase, and behind it some that do not begin with a word, do not run into one
another. -/
lemma Phrase.flows : {l : Level} → (p : Phrase l) → ∀ {rest : List Token}, Flows rest →
    (∀ u ∈ rest.head?, u.isWord = false) → Flows (p.tokens ++ rest)
  | _, .chain _ first others, rest, flows, other => by
    rw [Phrase.tokens, List.append_assoc]
    exact first.flows (others.flows flows other) (others.head?_append other)
  | _, .alone p, rest, flows, other => p.flows flows other
  | _, .compared mark _ found p q, rest, flows, other => by
    rw [Phrase.tokens, List.append_assoc, List.cons_append]
    have word := isWord_of_operator found
    refine p.flows (q.flows_cons word (q.flows flows other)) ?_
    rintro _ ⟨⟩
    exact word
  | _, .minus p, rest, flows, other => p.flows_cons rfl (p.flows flows other)
  | _, .bang p, rest, flows, other => p.flows_cons rfl (p.flows flows other)
  | _, .primary p, rest, flows, other => p.flows flows other
  | _, .word w, rest, flows, other =>
    flows_cons_of_ends (fun u h => by cases u <;> first | rfl | cases h) flows other
  | _, .quoted s, rest, flows, other => flows_cons_of_ends (fun _ _ => rfl) flows other
  | _, .enclosed p, rest, flows, other => by
    rw [Phrase.tokens, List.cons_append, List.append_assoc]
    exact p.flows_cons rfl (p.flows (flows_rightParen flows other) head?_rightParen)
  | _, .choice c p q, rest, flows, other => by
    have second := q.flows_cons (t := .semicolon) rfl
      (q.flows (flows_rightParen flows other) head?_rightParen)
    have first := p.flows_cons (t := .semicolon) rfl (p.flows second head?_semicolon)
    have condition := c.flows_cons (t := .question) rfl (c.flows first head?_semicolon)
    rw [Phrase.tokens]
    simp only [List.cons_append, List.append_assoc]
    exact List.isChain_cons_cons.2 ⟨rfl, condition⟩

/-- The tokens of a chain, and behind it some that do not begin with a word, do not run into one
another. -/
lemma Chain.flows : {l k : Level} → (c : Chain l k) → ∀ {rest : List Token}, Flows rest →
    (∀ u ∈ rest.head?, u.isWord = false) → Flows (c.tokens ++ rest)
  | _, _, .done, rest, flows, other => flows
  | _, _, .more mark _ found operand others, rest, flows, other => by
    rw [Chain.tokens, List.cons_append, List.append_assoc]
    exact operand.flows_cons (isWord_of_operator found)
      (operand.flows (others.flows flows other) (others.head?_append other))

end

/-! ## Texts of terms -/

/-- A digit is a word character. -/
lemma isWordChar_of_isDigit {c : Char} (h : c.isDigit = true) : isWordChar c = true := by
  have noOperator : isOperatorChar c = false := by
    have marks : "+-*/%<>=!&|()?;'\"".toList.all (fun d => !d.isDigit) = true := by decide
    refine Bool.eq_false_iff.2 fun mark => ?_
    have noDigit := List.all_eq_true.1 marks c (List.contains_iff_mem.1 mark)
    rw [h] at noDigit
    cases noDigit
  simp [isWordChar, noOperator, isBlank_of_isDigit h]

/-- Every token but a word has a spelling, and the words of a term have one. -/
lemma exists_spelled {t : Token}
    (h : ∀ w, t = .word w → w.toList ≠ [] ∧ ∀ c ∈ w.toList, isWordChar c = true) :
    ∃ ds, t.Spelled ds := by
  cases t with
  | word w => exact ⟨_, .word (h w rfl).1 (h w rfl).2⟩
  | quoted s =>
    obtain ⟨cs, escapes⟩ := exists_escapes s.toList
    exact ⟨_, .quoted (.inr rfl) escapes⟩
  | _ => exact ⟨_, by constructor⟩

/-- The words that a term is written with are made of characters of words. -/
lemma Written.words {l : Level} {t : Term} {ts : List Token} (h : Written l t ts) :
    ∀ w, .word w ∈ ts → w.toList ≠ [] ∧ ∀ c ∈ w.toList, isWordChar c = true := by
  have noWord : ∀ {m : Level} {mark : Token} {op : Term → Term → Term} {w : String},
      m.operator? mark = some op → .word w ≠ mark := by
    rintro m _ op w found rfl
    cases isWord_of_operator found
  induction h with
  | @integer n =>
    intro w member
    cases List.mem_singleton.1 member
    exact ⟨toList_toString_ne_nil n, fun c hc => isWordChar_of_isDigit (isDigit_of_mem_toString hc)⟩
  | truth b =>
    intro w member
    cases List.mem_singleton.1 member
    refine ⟨?_, List.all_eq_true.1 ?_⟩
    · cases b <;> decide
    · cases b <;> decide
  | text s =>
    intro w member
    cases List.mem_singleton.1 member
  | negate _ ih | not _ ih =>
    intro w member
    obtain ⟨⟩ | ⟨_, inside⟩ := member
    exact ih w inside
  | chained _ found _ _ ih ih' | compared found _ _ ih ih' =>
    intro w member
    obtain left | right := List.mem_append.1 member
    · exact ih w left
    · obtain mark | right := List.mem_cons.1 right
      · exact absurd mark (noWord found)
      · exact ih' w right
  | choice _ _ _ ih ih' ih'' =>
    intro w member
    simp only [List.mem_cons, List.mem_append, reduceCtorEq, false_or, or_false,
      List.not_mem_nil] at member
    obtain inside | inside | inside := member
    · exact ih w inside
    · exact ih' w inside
    · exact ih'' w inside
  | enclosed _ ih =>
    intro w member
    simp only [List.mem_cons, List.mem_append, reduceCtorEq, false_or, or_false,
      List.not_mem_nil] at member
    exact ih w member
  | tighter _ _ ih => exact ih

/-- Tokens that derive from the grammar are found in each of their texts, and spell the term. -/
lemma Level.Derives.read {t : Term} {ts : List Token} {cs : List Char}
    (h : Level.either.Derives ts t) (spells : Spells ts cs) :
    tokenize cs = .ok ts ∧ Term.ofTokens ts = .ok t := by
  obtain ⟨p, rfl, rfl⟩ := h
  have flows : Flows (p.tokens ++ []) := p.flows .nil nofun
  rw [List.append_nil] at flows
  exact ⟨spells.tokenize_eq flows, p.ofTokens_tokens⟩

/-- A text is evaluated to the value of the term that its tokens spell. -/
lemma evaluate_eq {source : String} {ts : List Token} {t : Term}
    (tokens : tokenize source.toList = .ok ts) (term : Term.ofTokens ts = .ok t) :
    evaluate source = t.eval := by
  rw [evaluate, tokens]
  cases ts with
  | nil => cases term
  | cons u us => simp only [term]

/-- A text of tokens that derive from the grammar is evaluated to the value of the term. -/
lemma Level.Derives.evaluate_eq {source : String} {t : Term} {ts : List Token}
    (h : Level.either.Derives ts t) (spells : Spells ts source.toList) :
    evaluate source = t.eval :=
  Expression.evaluate_eq (h.read spells).1 (h.read spells).2

/-! ## The grammar and the reader -/

/-- A list of tokens is accepted with a term exactly when the grammar derives it with this term, by
one derivation only. Comparisons that follow one another are refused wherever they stand. Every
plain term can be written out, and each of its texts is read as the term. -/
theorem ofTokens_follows_grammar :
    (∀ tokens t, Term.ofTokens tokens = .ok t ↔
      ∃ p : Phrase .either, p.tokens = tokens ∧ p.term = t) ∧
    (∀ p q : Phrase .either, p.tokens = q.tokens → p = q) ∧
    (∀ (mark mark' : Token) (op op' : Term → Term → Term) (y : Phrase .sum)
      (before after : List Token),
      Level.comparison.operator? mark = some op → Level.comparison.operator? mark' = some op' →
      ∀ t, Term.ofTokens (before ++ mark :: (y.tokens ++ mark' :: after)) ≠ .ok t) ∧
    ∀ t : Term, t.Plain →
      (∃ ts cs, Written .either t ts ∧ Spells ts cs) ∧
      ∀ ts cs, Written .either t ts → Spells ts cs →
        tokenize cs = .ok ts ∧ Term.ofTokens ts = .ok t := by
  refine ⟨fun tokens t => ⟨exists_phrase, ?_⟩, fun p q => Phrase.tokens_injective, ?_, ?_⟩
  · rintro ⟨p, rfl, rfl⟩
    exact p.ofTokens_tokens
  · intro mark mark' op op' y before after found found'
    exact chained_refused found found' y before after
  · intro t plain
    obtain ⟨ts, written⟩ := plain.exists_written
    obtain ⟨cs, spells⟩ := exists_spells fun u hu =>
      exists_spelled fun w eq => written.words w (eq ▸ hu)
    exact ⟨⟨ts, cs, written, spells⟩, fun ts cs written => written.derives.read⟩

/-- A sum in parentheses as a factor, and two comparisons in a row. -/
theorem ofTokens_follows_grammar_product :
    tokenize "(1 + 2)*'n\\\''".toList =
        .ok [.leftParen, .word "1", .plus, .word "2", .rightParen, .star, .quoted "n'"] ∧
      Term.ofTokens [.leftParen, .word "1", .plus, .word "2", .rightParen, .star, .quoted "n'"] =
        .ok (.binary .mul (.binary .add (.literal (.int 1)) (.literal (.int 2)))
          (.literal (.text "n'"))) ∧
      ∀ t, Term.ofTokens [.word "1", .less, .word "2", .less, .word "3"] ≠ .ok t := by
  have one : Written .product (.literal (.int 1)) [.word "1"] :=
    .tighter (by decide) (.integer (n := 1) (by decide))
  have two : Written .product (.literal (.int 2)) [.word "2"] :=
    .tighter (by decide) (.integer (n := 2) (by decide))
  have sum : Written .sum (.binary .add (.literal (.int 1)) (.literal (.int 2)))
      [.word "1", .plus, .word "2"] := .chained .sum rfl (.tighter (by decide) one) two
  have factor : Written .product (.binary .add (.literal (.int 1)) (.literal (.int 2)))
      [.leftParen, .word "1", .plus, .word "2", .rightParen] :=
    .tighter (by decide) (.enclosed (.tighter (by decide) sum))
  have text : Written .sign (.literal (.text "n'")) [.quoted "n'"] :=
    .tighter (by decide) (.text "n'")
  have written : Written .product _ (_ ++ .star :: _) := .chained .product rfl factor text
  have last : Spells [.quoted "n'"] ('\'' :: ("n\\'".toList ++ ['\'']) ++ []) :=
    .token (.quoted (.inl rfl) (.plain (by decide) (by decide)
      (.backslash (by decide) (by decide) .nil))) .nil
  have spells : Spells [.leftParen, .word "1", .plus, .word "2", .rightParen, .star, .quoted "n'"]
      "(1 + 2)*'n\\\''".toList := by
    have first : Token.Spelled (.word "1") "1".toList :=
      .word (by decide) (List.all_eq_true.1 (by decide))
    have second : Token.Spelled (.word "2") "2".toList :=
      .word (by decide) (List.all_eq_true.1 (by decide))
    exact .token .leftParen (.token first (.blank (by decide) (.token .plus (.blank (by decide)
      (.token second (.token .rightParen (.token .star last)))))))
  obtain ⟨-, -, chained, read⟩ := ofTokens_follows_grammar
  have plain : Term.Plain (.binary .mul (.binary .add (.literal (.int 1)) (.literal (.int 2)))
      (.literal (.text "n'"))) := ⟨⟨⟨by decide, by decide⟩, ⟨by decide, by decide⟩⟩, trivial⟩
  obtain ⟨tokens, term⟩ := (read _ plain).2 _ _ (.tighter (by decide) written) spells
  exact ⟨tokens, term, chained .less .less _ _ (.chain .sum (.chain .product (.primary (.word "2"))
    .done) .done) [.word "1"] [.word "3"] rfl rfl⟩

end ConfTree.Expression
