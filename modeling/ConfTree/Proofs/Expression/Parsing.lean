import ConfTree.Proofs.Expression.Grammar
import ConfTree.Proofs.Tree.Change

/-!
# The readers of terms follow the grammar

The reader of a level takes the tokens of each of its phrases, up to where the phrase stops
(`Phrase.read`), and takes nothing else (`reader_sound`). Two phrases of one level that stop on the
same tokens are one (`Phrase.unique`).
-/

namespace ConfTree.Expression

/-- The reader of a level over a reader of signed operands. -/
def Level.reader (signs : TermReader) : Level → TermReader
  | .either => looseLevel signs
  | .both => chain both? <| pair comparison? <| chain sumOperator? <| chain productOperator? signs
  | .comparison => pair comparison? <| chain sumOperator? <| chain productOperator? signs
  | .sum => chain sumOperator? <| chain productOperator? signs
  | .product => chain productOperator? signs
  | .sign => signs
  | .primary => signs

/-- The operators of the loosest level. -/
lemma operator?_either : Level.either.operator? = either? := by
  funext t
  cases t <;> rfl

/-- The operators of the level of conjunctions. -/
lemma operator?_both : Level.both.operator? = both? := by
  funext t
  cases t <;> rfl

/-- The operators of the level of comparisons. -/
lemma operator?_comparison : Level.comparison.operator? = comparison? := by
  funext t
  cases t <;> rfl

/-- The operators of the level of sums. -/
lemma operator?_sum : Level.sum.operator? = sumOperator? := by
  funext t
  cases t <;> rfl

/-- The operators of the level of products. -/
lemma operator?_product : Level.product.operator? = productOperator? := by
  funext t
  cases t <;> rfl

/-- A level over another one reads a chain of its phrases. -/
lemma Level.Over.reader_eq {l k : Level} (above : l.Over k) (signs : TermReader) :
    l.reader signs = Expression.chain l.operator? (k.reader signs) := by
  cases above with
  | either => rw [operator?_either]; rfl
  | both => rw [operator?_both]; rfl
  | sum => rw [operator?_sum]; rfl
  | product => rw [operator?_product]; rfl

/-- A comparison reads a sum, or two with an operator between them. -/
lemma reader_comparison (signs : TermReader) :
    Level.comparison.reader signs =
      pair Level.comparison.operator? (Level.sum.reader signs) := by
  rw [operator?_comparison]
  rfl

/-- A token that is expected is taken. -/
lemma takeExpected_self (t : Token) (rest : List Token) : takeExpected t (t :: rest) = .ok rest :=
  if_pos rfl

/-- What is taken is the token that is expected. -/
lemma takeExpected_ok {t : Token} {tokens rest : List Token}
    (h : takeExpected t tokens = .ok rest) : tokens = t :: rest := by
  cases tokens with
  | nil => cases h
  | cons u tokens =>
    rw [takeExpected] at h
    split at h
    next same =>
      cases h
      rw [same]
    next => cases h

/-- A chain ends before a token that is not its operator. -/
lemma chainFrom_stop {op? : Token → Option (Term → Term → Term)} {operand : TermReader}
    {left : Term} {rest : List Token} (n : Nat) (stop : ∀ t ∈ rest.head?, op? t = none) :
    chainFrom op? operand left n rest = .ok (left, rest) := by
  cases rest with
  | nil => cases n <;> rfl
  | cons t rest =>
    cases n with
    | zero => rfl
    | succ n => simp only [chainFrom, stop t rfl]

/-- A chain goes on with an operator and its operand. -/
lemma chainFrom_more {op? : Token → Option (Term → Term → Term)} {operand : TermReader}
    {left right : Term} {mark : Token} {op : Term → Term → Term} {tokens rest : List Token}
    (n : Nat) (eq : op? mark = some op) (run : operand tokens = .ok (right, rest)) :
    chainFrom op? operand left (n + 1) (mark :: tokens) =
      chainFrom op? operand (op left right) n rest := by
  simp only [chainFrom, eq, run]

/-- A parenthesis that no question mark follows encloses a term. -/
lemma signed_enclosed (fuel : Nat) {t : Token} (ts : List Token) (starts : t.starts = true) :
    signed (fuel + 1) (.leftParen :: t :: ts) =
      Expression.enclosed (looseLevel (signed fuel)) (t :: ts) := by
  cases t <;> first | rfl | cases starts

/-! ## Every phrase is read -/

/-- A term up to a closing parenthesis is read. -/
lemma enclosed_read {inner : TermReader} {tokens rest : List Token} {t : Term}
    (run : inner tokens = .ok (t, .rightParen :: rest)) :
    enclosed inner tokens = .ok (t, rest) := by
  rw [enclosed, run]
  show (takeExpected .rightParen (.rightParen :: rest) >>= fun rest => pure (t, rest)) = _
  rw [takeExpected_self]
  rfl

/-- A choice between two terms is read. -/
lemma choiceOf_read {inner : TermReader} {tokens tokens₁ tokens₂ rest : List Token}
    {condition first second : Term}
    (run : inner tokens = .ok (condition, .semicolon :: tokens₁))
    (run₁ : inner tokens₁ = .ok (first, .semicolon :: tokens₂))
    (run₂ : inner tokens₂ = .ok (second, .rightParen :: rest)) :
    choiceOf inner tokens = .ok (.choice condition first second, rest) := by
  simp only [choiceOf, run, run₁, run₂, bind, Except.bind, takeExpected_self]
  rfl

mutual

/-- The reader of a level takes a phrase up to where it stops. -/
lemma Phrase.read : {l : Level} → (p : Phrase l) → ∀ {fuel : Nat} {rest : List Token},
    (p.tokens ++ rest).length < fuel → l.Stops rest →
    l.reader (signed fuel) (p.tokens ++ rest) = .ok (p.term, rest)
  | l, .chain (k := k) above first others, fuel, rest, bound, stops => by
    rw [Phrase.tokens, List.append_assoc] at bound ⊢
    have front := first.read bound (others.stops above stops)
    have length : (others.tokens ++ rest).length < fuel := by
      simp only [List.length_append] at bound ⊢
      omega
    rw [above.reader_eq, Expression.chain]
    simp only [front]
    exact others.read above length stops (Nat.le_refl _)
  | _, .alone p, fuel, rest, bound, stops => by
    rw [Phrase.tokens] at bound ⊢
    have front : Level.reader (signed fuel) .sum (p.tokens ++ rest) = .ok (p.term, rest) :=
      p.read bound (stops.tighter (by decide))
    rw [reader_comparison, pair]
    simp only [front]
    exact chainFrom_stop 1 fun t head => stops t head .comparison (Nat.le_refl _)
  | _, .compared mark op eq p q, fuel, rest, bound, stops => by
    rw [Phrase.tokens, List.append_assoc, List.cons_append] at bound ⊢
    have front : Level.reader (signed fuel) .sum (p.tokens ++ mark :: (q.tokens ++ rest)) =
        .ok (p.term, mark :: (q.tokens ++ rest)) :=
      p.read bound (Level.stops_operator eq (by decide))
    have length : (q.tokens ++ rest).length < fuel := by
      simp only [List.length_append, List.length_cons] at bound ⊢
      omega
    have back : Level.reader (signed fuel) .sum (q.tokens ++ rest) = .ok (q.term, rest) :=
      q.read length (stops.tighter (by decide))
    rw [reader_comparison, pair]
    simp only [front]
    rw [chainFrom_more 0 eq back]
    exact chainFrom_stop 0 fun t head => stops t head .comparison (Nat.le_refl _)
  | _, .minus p, fuel + 1, rest, bound, stops => by
    rw [Phrase.tokens, List.cons_append] at bound ⊢
    have inner : signed fuel (p.tokens ++ rest) = .ok (p.term, rest) :=
      p.read (Nat.lt_of_succ_lt_succ bound) stops
    show signed (fuel + 1) (.minus :: (p.tokens ++ rest)) = _
    rw [signed]
    simp only [inner]
    rfl
  | _, .bang p, fuel + 1, rest, bound, stops => by
    rw [Phrase.tokens, List.cons_append] at bound ⊢
    have inner : signed fuel (p.tokens ++ rest) = .ok (p.term, rest) :=
      p.read (Nat.lt_of_succ_lt_succ bound) stops
    show signed (fuel + 1) (.bang :: (p.tokens ++ rest)) = _
    rw [signed]
    simp only [inner]
    rfl
  | _, .primary p, fuel, rest, bound, stops => by
    rw [Phrase.tokens] at bound ⊢
    exact p.read bound (stops.tighter (by decide))
  | _, .word w, fuel + 1, rest, bound, stops => rfl
  | _, .quoted s, fuel + 1, rest, bound, stops => rfl
  | _, .enclosed p, fuel + 1, rest, bound, stops => by
    rw [Phrase.tokens, List.cons_append, List.append_assoc, List.singleton_append] at bound ⊢
    have inner : looseLevel (signed fuel) (p.tokens ++ .rightParen :: rest) =
        .ok (p.term, .rightParen :: rest) :=
      p.read (Nat.lt_of_succ_lt_succ bound) Level.stops_rightParen
    obtain ⟨t, ts, eq, starts⟩ := p.exists_cons
    show signed (fuel + 1) (.leftParen :: (p.tokens ++ .rightParen :: rest)) = _
    rw [eq, List.cons_append, signed_enclosed fuel _ starts, ← List.cons_append, ← eq]
    exact enclosed_read inner
  | _, .choice c p q, fuel + 1, rest, bound, stops => by
    rw [Phrase.tokens] at bound ⊢
    simp only [List.cons_append, List.append_assoc, List.nil_append, List.length_cons,
      List.length_append] at bound ⊢
    have condition := @Phrase.read _ c fuel (.semicolon :: (p.tokens ++ .semicolon ::
      (q.tokens ++ .rightParen :: rest)))
      (by simp only [List.length_cons, List.length_append]; omega) Level.stops_semicolon
    have first := @Phrase.read _ p fuel (.semicolon :: (q.tokens ++ .rightParen :: rest))
      (by simp only [List.length_cons, List.length_append]; omega) Level.stops_semicolon
    have second := @Phrase.read _ q fuel (.rightParen :: rest)
      (by simp only [List.length_cons, List.length_append]; omega) Level.stops_rightParen
    exact choiceOf_read condition first second

/-- The reader of a chain takes its operators and operands up to where the chain stops. -/
lemma Chain.read : {l k : Level} → (c : Chain l k) → l.Over k →
    ∀ {fuel : Nat} {left : Term} {rest : List Token} {n : Nat},
    (c.tokens ++ rest).length < fuel → l.Stops rest → (c.tokens ++ rest).length ≤ n →
    chainFrom l.operator? (k.reader (signed fuel)) left n (c.tokens ++ rest) =
      .ok (c.termFrom left, rest)
  | l, _, .done, _, fuel, left, rest, n, bound, stops, enough =>
    chainFrom_stop n fun t head => stops t head l (Nat.le_refl _)
  | l, k, .more mark op eq operand others, above, fuel, left, rest, n + 1, bound, stops,
      enough => by
    rw [Chain.tokens, List.cons_append, List.append_assoc] at bound enough ⊢
    simp only [List.length_cons, List.length_append] at bound enough
    have front := @Phrase.read _ operand fuel (others.tokens ++ rest)
      (by simp only [List.length_append]; omega) (others.stops above stops)
    rw [chainFrom_more n eq front, Chain.termFrom]
    exact others.read above (by simp only [List.length_append]; omega) stops
      (by simp only [List.length_append]; omega)

end

/-! ## What is read is a phrase -/

/-- A reader takes phrases of the level only. -/
def Level.Sound (l : Level) (reader : TermReader) : Prop :=
  ∀ ⦃tokens rest : List Token⦄ ⦃t : Term⦄, reader tokens = .ok (t, rest) →
    ∃ p : Phrase l, tokens = p.tokens ++ rest ∧ p.term = t

/-- What is read behind the first operand is a chain. -/
lemma chainFrom_sound {l k : Level} {operand : TermReader} (sound : k.Sound operand) {n : Nat} :
    ∀ {left : Term} {tokens rest : List Token} {t : Term},
    chainFrom l.operator? operand left n tokens = .ok (t, rest) →
    ∃ c : Chain l k, tokens = c.tokens ++ rest ∧ c.termFrom left = t := by
  induction n with
  | zero =>
    intro left tokens rest t h
    cases tokens <;> cases h <;> exact ⟨.done, rfl, rfl⟩
  | succ n ih =>
    intro left tokens rest t h
    cases tokens with
    | nil =>
      cases h
      exact ⟨.done, rfl, rfl⟩
    | cons mark tokens =>
      rw [chainFrom] at h
      split at h
      next =>
        cases h
        exact ⟨.done, rfl, rfl⟩
      next op eq =>
        split at h
        next => cases h
        next right others run =>
          obtain ⟨p, rfl, rfl⟩ := sound run
          obtain ⟨c, rfl, rfl⟩ := ih h
          exact ⟨.more mark op eq p c, by rw [Chain.tokens, List.cons_append, List.append_assoc],
            by rw [Chain.termFrom]⟩

/-- A reader of chains is sound if the reader of operands is. -/
lemma chain_sound {l k : Level} (above : l.Over k) {operand : TermReader}
    (sound : k.Sound operand) : l.Sound (chain l.operator? operand) := by
  intro tokens rest t h
  rw [chain] at h
  split at h
  next => cases h
  next left others run =>
    obtain ⟨p, rfl, rfl⟩ := sound run
    obtain ⟨c, rfl, rfl⟩ := chainFrom_sound sound h
    exact ⟨.chain above p c, by rw [Phrase.tokens, List.append_assoc], by rw [Phrase.term]⟩

/-- A reader of comparisons is sound if the reader of sums is. -/
lemma pair_sound {operand : TermReader} (sound : Level.sum.Sound operand) :
    Level.comparison.Sound (pair Level.comparison.operator? operand) := by
  intro tokens rest t h
  rw [pair] at h
  split at h
  next => cases h
  next left others run =>
    obtain ⟨p, rfl, rfl⟩ := sound run
    cases others with
    | nil =>
      cases h
      exact ⟨.alone p, by rw [Phrase.tokens], by rw [Phrase.term]⟩
    | cons mark others =>
      rw [chainFrom] at h
      split at h
      next =>
        cases h
        exact ⟨.alone p, by rw [Phrase.tokens], by rw [Phrase.term]⟩
      next op eq =>
        split at h
        next => cases h
        next right more run =>
          obtain ⟨q, rfl, rfl⟩ := sound run
          -- One operator only: the chain of fuel `1` ends behind it.
          have done : chainFrom Level.comparison.operator? operand (op p.term q.term) 0 more =
            .ok (op p.term q.term, more) := by cases more <;> rfl
          cases done.symm.trans h
          exact ⟨.compared mark op eq p q,
            by rw [Phrase.tokens, List.append_assoc, List.cons_append], by rw [Phrase.term]⟩

/-- The reader of the loosest level is sound if the reader of signs is. -/
lemma looseLevel_sound {signs : TermReader} (sound : Level.sign.Sound signs) :
    Level.either.Sound (looseLevel signs) := by
  have product := chain_sound .product sound
  have sum := chain_sound .sum product
  have both := chain_sound .both (pair_sound sum)
  have either := chain_sound .either both
  rw [operator?_product, operator?_sum, operator?_comparison, operator?_both,
    operator?_either] at either
  exact either

/-- What is read up to a closing parenthesis is a phrase. -/
lemma enclosed_sound {inner : TermReader} (sound : Level.either.Sound inner)
    {tokens rest : List Token} {t : Term} (h : enclosed inner tokens = .ok (t, rest)) :
    ∃ p : Phrase .either, tokens = p.tokens ++ .rightParen :: rest ∧ p.term = t := by
  obtain ⟨⟨term, more⟩, run, h⟩ := bind_eq_ok h
  obtain ⟨p, rfl, rfl⟩ := sound run
  obtain ⟨others, run, h⟩ := bind_eq_ok h
  cases takeExpected_ok run
  cases h
  exact ⟨p, rfl, rfl⟩

/-- What is read as a choice is made of three phrases. -/
lemma choiceOf_sound {inner : TermReader} (sound : Level.either.Sound inner)
    {tokens rest : List Token} {t : Term} (h : choiceOf inner tokens = .ok (t, rest)) :
    ∃ c p q : Phrase .either, tokens = c.tokens ++ .semicolon :: (p.tokens ++ .semicolon ::
      (q.tokens ++ .rightParen :: rest)) ∧ Term.choice c.term p.term q.term = t := by
  obtain ⟨⟨_, tokens₁⟩, run, next⟩ := bind_eq_ok h
  obtain ⟨c, rfl, rfl⟩ := sound run
  obtain ⟨tokens₂, mark, next₁⟩ := bind_eq_ok next
  obtain rfl : tokens₁ = .semicolon :: tokens₂ := takeExpected_ok mark
  obtain ⟨⟨_, tokens₃⟩, run₁, next₂⟩ := bind_eq_ok next₁
  obtain ⟨p, rfl, rfl⟩ := sound run₁
  obtain ⟨tokens₄, mark₁, next₃⟩ := bind_eq_ok next₂
  obtain rfl : tokens₃ = .semicolon :: tokens₄ := takeExpected_ok mark₁
  obtain ⟨⟨_, tokens₅⟩, run₂, next₄⟩ := bind_eq_ok next₃
  obtain ⟨q, rfl, rfl⟩ := sound run₂
  obtain ⟨tokens₆, mark₂, next₅⟩ := bind_eq_ok next₄
  obtain rfl : tokens₅ = .rightParen :: tokens₆ := takeExpected_ok mark₂
  cases next₅
  exact ⟨c, p, q, rfl, rfl⟩

/-- The level of signs takes its phrases only, whatever the fuel. -/
lemma signed_sound (fuel : Nat) : Level.sign.Sound (signed fuel) := by
  induction fuel with
  | zero =>
    intro tokens rest t h
    cases tokens <;> cases h
  | succ fuel ih =>
    intro tokens rest t h
    cases tokens with
    | nil => cases h
    | cons token tokens =>
      cases token with
      | minus =>
        obtain ⟨⟨_, _⟩, run, h⟩ := bind_eq_ok h
        obtain ⟨p, rfl, rfl⟩ := ih run
        cases h
        exact ⟨.minus p, rfl, rfl⟩
      | bang =>
        obtain ⟨⟨_, _⟩, run, h⟩ := bind_eq_ok h
        obtain ⟨p, rfl, rfl⟩ := ih run
        cases h
        exact ⟨.bang p, rfl, rfl⟩
      | word w =>
        cases h
        exact ⟨.primary (.word w), rfl, rfl⟩
      | quoted s =>
        cases h
        exact ⟨.primary (.quoted s), rfl, rfl⟩
      | leftParen =>
        rw [signed.eq_def] at h
        simp only at h
        split at h
        next tokens =>
          obtain ⟨c, p, q, rfl, rfl⟩ := choiceOf_sound (looseLevel_sound ih) h
          exact ⟨.primary (.choice c p q), by simp [Phrase.tokens], rfl⟩
        next =>
          obtain ⟨p, rfl, rfl⟩ := enclosed_sound (looseLevel_sound ih) h
          exact ⟨.primary (.enclosed p), by simp [Phrase.tokens], rfl⟩
      | _ => cases h

/-! ## A list of tokens has one derivation -/

/-- A phrase without a sign in front begins with neither of the signs. -/
lemma Phrase.primary_cons (p : Phrase .primary) :
    ∃ t ts, p.tokens = t :: ts ∧ t ≠ .minus ∧ t ≠ .bang := by
  cases p with
  | chain above => cases above
  | word w => exact ⟨.word w, [], rfl, nofun, nofun⟩
  | quoted s => exact ⟨.quoted s, [], rfl, nofun, nofun⟩
  | enclosed p => exact ⟨.leftParen, _, rfl, nofun, nofun⟩
  | choice c p q => exact ⟨.leftParen, _, rfl, nofun, nofun⟩

mutual

/-- Two phrases of a level that stop on the same tokens are one. -/
lemma Phrase.unique : {l : Level} → (p q : Phrase l) → ∀ {rest rest' : List Token},
    l.Stops rest → l.Stops rest' → p.tokens ++ rest = q.tokens ++ rest' → p = q ∧ rest = rest'
  | l, .chain above first others, q, rest, rest', stops, stops', eq => by
    cases q with
    | chain above' first' others' =>
      cases above.unique above'
      rw [Phrase.tokens, Phrase.tokens, List.append_assoc, List.append_assoc] at eq
      obtain ⟨rfl, eq'⟩ := first.unique first' (others.stops above stops)
        (others'.stops above stops') eq
      obtain ⟨rfl, rfl⟩ := others.unique others' above stops stops' eq'
      exact ⟨rfl, rfl⟩
    | _ => cases above
  | _, .alone p, q, rest, rest', stops, stops', eq => by
    cases q with
    | chain above => cases above
    | alone q =>
      obtain ⟨rfl, rfl⟩ := p.unique q (stops.tighter (by decide)) (stops'.tighter (by decide)) eq
      exact ⟨rfl, rfl⟩
    | compared mark op found q₁ q₂ =>
      rw [Phrase.tokens, Phrase.tokens, List.append_assoc, List.cons_append] at eq
      obtain ⟨-, rfl⟩ := p.unique q₁ (stops.tighter (by decide))
        (Level.stops_operator found (by decide)) eq
      cases (stops mark rfl .comparison (Nat.le_refl _)).symm.trans found
  | _, .compared mark op found p₁ p₂, q, rest, rest', stops, stops', eq => by
    cases q with
    | chain above => cases above
    | alone q =>
      rw [Phrase.tokens, Phrase.tokens, List.append_assoc, List.cons_append] at eq
      obtain ⟨-, rfl⟩ := p₁.unique q
        (Level.stops_operator found (by decide)) (stops'.tighter (by decide)) eq
      cases (stops' mark rfl .comparison (Nat.le_refl _)).symm.trans found
    | compared mark' op' found' q₁ q₂ =>
      rw [Phrase.tokens, Phrase.tokens, List.append_assoc, List.append_assoc, List.cons_append,
        List.cons_append] at eq
      obtain ⟨rfl, eq₁⟩ := p₁.unique q₁
        (Level.stops_operator found (by decide))
        (Level.stops_operator found' (by decide)) eq
      obtain ⟨rfl, eq₂⟩ := List.cons.inj eq₁
      obtain rfl : op = op' := Option.some.inj (found.symm.trans found')
      obtain ⟨rfl, rfl⟩ := p₂.unique q₂ (stops.tighter (by decide)) (stops'.tighter (by decide)) eq₂
      exact ⟨rfl, rfl⟩
  | _, .minus p, q, rest, rest', stops, stops', eq => by
    cases q with
    | chain above => cases above
    | minus q =>
      obtain ⟨rfl, rfl⟩ := p.unique q stops stops' (List.cons.inj eq).2
      exact ⟨rfl, rfl⟩
    | bang q => cases (List.cons.inj eq).1
    | primary q =>
      obtain ⟨t, ts, first, noMinus, -⟩ := q.primary_cons
      rw [Phrase.tokens, Phrase.tokens, first] at eq
      exact absurd (List.cons.inj eq).1.symm noMinus
  | _, .bang p, q, rest, rest', stops, stops', eq => by
    cases q with
    | chain above => cases above
    | minus q => cases (List.cons.inj eq).1
    | bang q =>
      obtain ⟨rfl, rfl⟩ := p.unique q stops stops' (List.cons.inj eq).2
      exact ⟨rfl, rfl⟩
    | primary q =>
      obtain ⟨t, ts, first, -, noBang⟩ := q.primary_cons
      rw [Phrase.tokens, Phrase.tokens, first] at eq
      exact absurd (List.cons.inj eq).1.symm noBang
  | _, .primary p, q, rest, rest', stops, stops', eq => by
    cases q with
    | chain above => cases above
    | minus q =>
      obtain ⟨t, ts, first, noMinus, -⟩ := p.primary_cons
      rw [Phrase.tokens, Phrase.tokens, first] at eq
      exact absurd (List.cons.inj eq).1 noMinus
    | bang q =>
      obtain ⟨t, ts, first, -, noBang⟩ := p.primary_cons
      rw [Phrase.tokens, Phrase.tokens, first] at eq
      exact absurd (List.cons.inj eq).1 noBang
    | primary q =>
      obtain ⟨rfl, rfl⟩ := p.unique q (stops.tighter (by decide)) (stops'.tighter (by decide)) eq
      exact ⟨rfl, rfl⟩
  | _, .word w, q, rest, rest', stops, stops', eq => by
    cases q with
    | chain above => cases above
    | word w' =>
      cases eq
      exact ⟨rfl, rfl⟩
    | _ => cases (List.cons.inj eq).1
  | _, .quoted s, q, rest, rest', stops, stops', eq => by
    cases q with
    | chain above => cases above
    | quoted s' =>
      cases eq
      exact ⟨rfl, rfl⟩
    | _ => cases (List.cons.inj eq).1
  | _, .enclosed p, q, rest, rest', stops, stops', eq => by
    cases q with
    | chain above => cases above
    | enclosed q =>
      rw [Phrase.tokens, Phrase.tokens, List.cons_append, List.cons_append, List.append_assoc,
        List.append_assoc] at eq
      obtain ⟨rfl, eq'⟩ := p.unique q Level.stops_rightParen Level.stops_rightParen
        (List.cons.inj eq).2
      exact ⟨rfl, (List.cons.inj eq').2⟩
    | choice c q₁ q₂ =>
      obtain ⟨t, ts, first, starts⟩ := p.exists_cons
      rw [Phrase.tokens, Phrase.tokens, first] at eq
      obtain rfl : t = .question := (List.cons.inj (List.cons.inj eq).2).1
      cases starts
    | _ => cases (List.cons.inj eq).1
  | _, .choice c p₁ p₂, q, rest, rest', stops, stops', eq => by
    cases q with
    | chain above => cases above
    | enclosed q =>
      obtain ⟨t, ts, first, starts⟩ := q.exists_cons
      rw [Phrase.tokens, Phrase.tokens, first] at eq
      obtain rfl : t = .question := (List.cons.inj (List.cons.inj eq).2).1.symm
      cases starts
    | choice c' q₁ q₂ =>
      simp only [Phrase.tokens, List.cons_append, List.append_assoc, List.cons.injEq,
        true_and] at eq
      obtain ⟨rfl, eq₁⟩ := c.unique c' Level.stops_semicolon Level.stops_semicolon eq
      obtain ⟨rfl, eq₂⟩ := p₁.unique q₁ Level.stops_semicolon Level.stops_semicolon
        (List.cons.inj eq₁).2
      obtain ⟨rfl, eq₃⟩ := p₂.unique q₂ Level.stops_rightParen Level.stops_rightParen
        (List.cons.inj eq₂).2
      exact ⟨rfl, (List.cons.inj eq₃).2⟩
    | _ => cases (List.cons.inj eq).1

/-- Two chains in front of what stops them are the same if their tokens are. -/
lemma Chain.unique : {l k : Level} → (c d : Chain l k) → l.Over k → ∀ {rest rest' : List Token},
    l.Stops rest → l.Stops rest' → c.tokens ++ rest = d.tokens ++ rest' → c = d ∧ rest = rest'
  | l, _, .done, d, above, rest, rest', stops, stops', eq => by
    cases d with
    | done => exact ⟨rfl, eq⟩
    | more mark op found operand others =>
      obtain rfl : rest = mark :: _ := eq
      cases (stops mark rfl l (Nat.le_refl _)).symm.trans found
  | l, _, .more mark op found operand others, d, above, rest, rest', stops, stops', eq => by
    cases d with
    | done =>
      obtain rfl : mark :: _ = rest' := eq
      cases (stops' mark rfl l (Nat.le_refl _)).symm.trans found
    | more mark' op' found' operand' others' =>
      rw [Chain.tokens, Chain.tokens, List.cons_append, List.cons_append, List.append_assoc,
        List.append_assoc] at eq
      obtain ⟨rfl, eq₁⟩ := List.cons.inj eq
      obtain rfl : op = op' := Option.some.inj (found.symm.trans found')
      obtain ⟨rfl, eq₂⟩ := operand.unique operand' (others.stops above stops)
        (others'.stops above stops') eq₁
      obtain ⟨rfl, rfl⟩ := others.unique others' above stops stops' eq₂
      exact ⟨rfl, rfl⟩

end

/-- The tokens of a phrase determine its derivation. -/
lemma Phrase.tokens_injective {l : Level} {p q : Phrase l} (eq : p.tokens = q.tokens) : p = q :=
  (p.unique q Level.stops_nil Level.stops_nil (by rw [eq])).1

/-! ## Whole lists of tokens -/

/-- The tokens of a phrase spell its term. -/
lemma Phrase.ofTokens_tokens (p : Phrase .either) : Term.ofTokens p.tokens = .ok p.term := by
  have run := @Phrase.read _ p (p.tokens.length + 1) []
    (by rw [List.append_nil]; exact Nat.lt_succ_self _) Level.stops_nil
  rw [List.append_nil] at run
  replace run : readTerm p.tokens = .ok (p.term, []) := run
  rw [Term.ofTokens, run]

/-- What spells a term is a phrase of the loosest level. -/
lemma exists_phrase {tokens : List Token} {t : Term} (h : Term.ofTokens tokens = .ok t) :
    ∃ p : Phrase .either, p.tokens = tokens ∧ p.term = t := by
  rw [Term.ofTokens] at h
  split at h
  next => cases h
  next term run =>
    cases h
    obtain ⟨p, eq, term⟩ := looseLevel_sound (signed_sound _) run
    exact ⟨p, by rw [eq, List.append_nil], term⟩
  next => cases h

/-! ## Comparisons do not follow one another -/

/-- A member of two lists in a row is in the first or in the second. -/
lemma append_split {α : Type} {a b before after : List α} {x : α}
    (eq : a ++ b = before ++ x :: after) :
    (∃ s, a = before ++ x :: s ∧ after = s ++ b) ∨ (∃ s, b = s ++ x :: after) := by
  obtain ⟨s, -, second⟩ | ⟨s, first, second⟩ := List.append_eq_append_iff.1 eq
  · exact .inr ⟨s, second⟩
  · cases s with
    | nil => exact .inr ⟨[], second.symm⟩
    | cons y s =>
      obtain ⟨rfl, rfl⟩ := List.cons.inj second
      exact .inl ⟨s, first, rfl⟩

/-- A member other than the first one stands behind the first one. -/
lemma behind_other {α : Type} {a before after : List α} {x y : α} (ne : y ≠ x)
    (eq : y :: a = before ++ x :: after) : ∃ s, a = s ++ x :: after := by
  cases before with
  | nil => exact absurd (List.cons.inj eq).1 ne
  | cons z before => exact ⟨before, (List.cons.inj eq).2⟩

/-- Behind a comparison stands one sum, and then no comparison. -/
def Level.Compares (l : Level) (after : List Token) : Prop :=
  ∃ (q : Phrase .sum) (others : List Token), after = q.tokens ++ others ∧
    ∀ rest, l.Stops rest → Level.comparison.Stops (others ++ rest)

/-- More tokens stand behind a phrase, on which it stops. -/
lemma Level.Compares.append {l k : Level} {after more : List Token} (h : k.Compares after)
    (stops : ∀ rest, l.Stops rest → k.Stops (more ++ rest)) : l.Compares (after ++ more) := by
  obtain ⟨q, others, rfl, apart⟩ := h
  exact ⟨q, others ++ more, List.append_assoc .., fun rest stop => by
    rw [List.append_assoc]
    exact apart _ (stops rest stop)⟩

section

variable {mark : Token} {op : Term → Term → Term}

mutual

/-- A comparison anywhere in a phrase compares one sum. -/
lemma Phrase.compares (found : Level.comparison.operator? mark = some op) : {l : Level} →
    (p : Phrase l) → ∀ {before after : List Token},
    p.tokens = before ++ mark :: after → l.Compares after
  | l, .chain above first others, before, after, eq => by
    obtain ⟨s, inside, rfl⟩ | ⟨s, inside⟩ := append_split eq
    · exact (first.compares found inside).append fun rest stop => others.stops above stop
    · exact others.compares found above inside
  | _, .alone p, before, after, eq => by
    have apart : Level.comparison.Compares (after ++ []) :=
      (p.compares found eq).append fun rest stop => stop.tighter (by decide)
    rwa [List.append_nil] at apart
  | _, .compared mark' op' found' p q, before, after, eq => by
    obtain ⟨s, inside, rfl⟩ | ⟨s, inside⟩ := append_split eq
    · exact (p.compares found inside).append fun rest _ =>
        Level.stops_operator found' (by decide)
    · cases s with
      | nil =>
        obtain ⟨rfl, rfl⟩ := List.cons.inj inside
        exact ⟨q, [], (List.append_nil _).symm, fun rest stop => stop⟩
      | cons t s =>
        have apart : Level.comparison.Compares (after ++ []) :=
          (q.compares found (List.cons.inj inside).2).append fun rest stop =>
            stop.tighter (by decide)
        rwa [List.append_nil] at apart
  | _, .minus p, before, after, eq => by
    obtain ⟨s, inside⟩ := behind_other (by rintro rfl; cases found) eq
    exact p.compares found inside
  | _, .bang p, before, after, eq => by
    obtain ⟨s, inside⟩ := behind_other (by rintro rfl; cases found) eq
    exact p.compares found inside
  | _, .primary p, before, after, eq => by
    have apart : Level.sign.Compares (after ++ []) :=
      (p.compares found eq).append fun rest stop => stop.tighter (by decide)
    rwa [List.append_nil] at apart
  | _, .word _, before, after, eq => by
    obtain ⟨s, inside⟩ := behind_other (by rintro rfl; cases found) eq
    cases s <;> cases inside
  | _, .quoted _, before, after, eq => by
    obtain ⟨s, inside⟩ := behind_other (by rintro rfl; cases found) eq
    cases s <;> cases inside
  | _, .enclosed p, before, after, eq => by
    obtain ⟨s, tail⟩ := behind_other (by rintro rfl; cases found) eq
    obtain ⟨s', inside, rfl⟩ | ⟨s', close⟩ := append_split tail
    · exact (p.compares found inside).append fun rest _ => Level.stops_rightParen
    · obtain ⟨s, last⟩ := behind_other (by rintro rfl; cases found) close
      cases s <;> cases last
  | _, .choice c p q, before, after, eq => by
    obtain ⟨s, open₁⟩ := behind_other (by rintro rfl; cases found) eq
    obtain ⟨s, open₂⟩ := behind_other (by rintro rfl; cases found) open₁
    obtain ⟨s', inside, rfl⟩ | ⟨s', close⟩ := append_split open₂
    · exact (c.compares found inside).append fun rest _ => Level.stops_semicolon
    obtain ⟨s, tail⟩ := behind_other (by rintro rfl; cases found) close
    obtain ⟨s', inside, rfl⟩ | ⟨s', close⟩ := append_split tail
    · exact (p.compares found inside).append fun rest _ => Level.stops_semicolon
    obtain ⟨s, tail⟩ := behind_other (by rintro rfl; cases found) close
    obtain ⟨s', inside, rfl⟩ | ⟨s', close⟩ := append_split tail
    · exact (q.compares found inside).append fun rest _ => Level.stops_rightParen
    obtain ⟨s, last⟩ := behind_other (by rintro rfl; cases found) close
    cases s <;> cases last

/-- Behind the mark of a comparison in a chain stands one sum, and then no comparison. -/
lemma Chain.compares (found : Level.comparison.operator? mark = some op) : {l k : Level} →
    (c : Chain l k) → l.Over k → ∀ {before after : List Token},
    c.tokens = before ++ mark :: after → l.Compares after
  | _, _, .done, _, before, after, eq => by cases before <;> cases eq
  | l, k, .more mark' op' found' operand others, above, before, after, eq => by
    cases before with
    | nil =>
      obtain rfl : mark' = mark := (List.cons.inj eq).1
      cases Level.operator?_unique found' found
      cases above
    | cons t before =>
      obtain ⟨s, inside, rfl⟩ | ⟨s, inside⟩ := append_split (List.cons.inj eq).2
      · exact (operand.compares found inside).append fun rest stop => others.stops above stop
      · exact others.compares found above inside

end

end

/-- Two comparisons with only a sum between them stand in no phrase. -/
lemma chained_refused {mark mark' : Token} {op op' : Term → Term → Term}
    (found : Level.comparison.operator? mark = some op)
    (found' : Level.comparison.operator? mark' = some op')
    (y : Phrase .sum) (before after : List Token) (t : Term) :
    Term.ofTokens (before ++ mark :: (y.tokens ++ mark' :: after)) ≠ .ok t := by
  intro h
  obtain ⟨p, eq, -⟩ := exists_phrase h
  obtain ⟨q, others, next, apart⟩ := p.compares found eq
  have stop : Level.comparison.Stops others := List.append_nil others ▸ apart [] Level.stops_nil
  obtain ⟨-, rfl⟩ := y.unique q (Level.stops_operator found' (by decide))
    (stop.tighter (by decide)) next
  cases (stop mark' rfl .comparison (Nat.le_refl _)).symm.trans found'

end ConfTree.Expression
