import ConfTree.Expression.Term
import Mathlib.Tactic.Lemma

/-!
# The grammar of expressions

The concrete syntax of expressions, as derivations of the grammar

    either     := both ('||' both)*
    both       := comparison ('&&' comparison)*
    comparison := sum [('<' | '<=' | '>' | '>=' | '==' | '!=') sum]
    sum        := product (('+' | '-') product)*
    product    := sign (('*' | '/' | '%') sign)*
    sign       := ('-' | '!') sign | primary
    primary    := word | string | '(' either ')' | '(' '?' either ';' either ';' either ')'

A derivation tells the tokens that it derives (`Phrase.tokens`) and the term that they spell
(`Phrase.term`), in which repeated operators group to the left.
-/

namespace ConfTree.Expression

/-- The levels of the grammar, from loose to tight. -/
inductive Level where
  | either | both | comparison | sum | product | sign | primary
  deriving DecidableEq, Repr

namespace Level

/-- The operator that a token is between two operands of a level. -/
def operator? : Level → Token → Option (Term → Term → Term)
  | .either, .either => some .either
  | .both, .both => some .both
  | .comparison, .less => some (.binary .less)
  | .comparison, .atMost => some (.binary .atMost)
  | .comparison, .greater => some (.binary .greater)
  | .comparison, .atLeast => some (.binary .atLeast)
  | .comparison, .equal => some (.binary .equal)
  | .comparison, .unequal => some (.binary .unequal)
  | .sum, .plus => some (.binary .add)
  | .sum, .minus => some (.binary .sub)
  | .product, .star => some (.binary .mul)
  | .product, .slash => some (.binary .div)
  | .product, .percent => some (.binary .rem)
  | _, _ => none

/-- A tighter level has a higher rank. -/
def rank : Level → Nat
  | .either => 0
  | .both => 1
  | .comparison => 2
  | .sum => 3
  | .product => 4
  | .sign => 5
  | .primary => 6

/-- The phrases of the first level are chains of phrases of the second. -/
inductive Over : Level → Level → Prop where
  | either : Over .either .both
  | both : Over .both .comparison
  | sum : Over .sum .product
  | product : Over .product .sign

end Level

mutual

/-- A derivation of a list of tokens from a level of the grammar. -/
inductive Phrase : Level → Type where
  | chain {l k : Level} :
    l.Over k →
    Phrase k →
    Chain l k →
    Phrase l
  | alone :
    Phrase .sum →
    Phrase .comparison
  | compared (mark : Token) (op : Term → Term → Term) :
    Level.comparison.operator? mark = some op →
    Phrase .sum →
    Phrase .sum →
    Phrase .comparison
  | minus :
    Phrase .sign →
    Phrase .sign
  | bang :
    Phrase .sign →
    Phrase .sign
  | primary :
    Phrase .primary →
    Phrase .sign
  | word (w : String) : Phrase .primary
  | quoted (s : String) : Phrase .primary
  | enclosed :
    Phrase .either →
    Phrase .primary
  | choice :
    Phrase .either →
    Phrase .either →
    Phrase .either →
    Phrase .primary

/-- A derivation of operators with an operand each, which go on with a chain. -/
inductive Chain : Level → Level → Type where
  | done {l k : Level} : Chain l k
  | more {l k : Level} (mark : Token) (op : Term → Term → Term) :
    l.operator? mark = some op →
    Phrase k →
    Chain l k →
    Chain l k

end

mutual

/-- The tokens that a derivation derives. -/
def Phrase.tokens : {l : Level} → Phrase l → List Token
  | _, .chain _ first rest => first.tokens ++ rest.tokens
  | _, .alone p => p.tokens
  | _, .compared mark _ _ p q => p.tokens ++ mark :: q.tokens
  | _, .minus p => .minus :: p.tokens
  | _, .bang p => .bang :: p.tokens
  | _, .primary p => p.tokens
  | _, .word w => [.word w]
  | _, .quoted s => [.quoted s]
  | _, .enclosed p => .leftParen :: (p.tokens ++ [.rightParen])
  | _, .choice c p q =>
    .leftParen :: .question :: (c.tokens ++ .semicolon :: (p.tokens ++ .semicolon ::
      (q.tokens ++ [.rightParen])))

def Chain.tokens : {l k : Level} → Chain l k → List Token
  | _, _, .done => []
  | _, _, .more mark _ _ operand rest => mark :: (operand.tokens ++ rest.tokens)

end

mutual

/-- The term that a derivation gives its tokens. -/
def Phrase.term : {l : Level} → Phrase l → Term
  | _, .chain _ first rest => rest.termFrom first.term
  | _, .alone p => p.term
  | _, .compared _ op _ p q => op p.term q.term
  | _, .minus p => .negate p.term
  | _, .bang p => .not p.term
  | _, .primary p => p.term
  | _, .word w => .literal (.ofWord w)
  | _, .quoted s => .literal (.text s)
  | _, .enclosed p => p.term
  | _, .choice c p q => .choice c.term p.term q.term

/-- The term of a chain whose part so far is `left`. -/
def Chain.termFrom (left : Term) : {l k : Level} → Chain l k → Term
  | _, _, .done => left
  | _, _, .more _ op _ operand rest => rest.termFrom (op left operand.term)

end

/-! ## Where a phrase ends -/

/-- No phrase of the level goes on with the tokens: the first of them is no operator of the level or
of a tighter one. -/
def Level.Stops (l : Level) (tokens : List Token) : Prop :=
  ∀ t ∈ tokens.head?, ∀ m : Level, l.rank ≤ m.rank → m.operator? t = none

namespace Level

variable {l k m : Level} {t : Token} {tokens : List Token}

/-- Every chain stops at the end. -/
lemma stops_nil : l.Stops [] := nofun

/-- A tighter phrase stops wherever a looser one does. -/
lemma Stops.tighter (h : l.Stops tokens) (rank : l.rank ≤ k.rank) : k.Stops tokens :=
  fun t ht m hm => h t ht m (Nat.le_trans rank hm)

/-- A token is an operator of one level only. -/
lemma operator?_unique {f g : Term → Term → Term} (h : l.operator? t = some f)
    (h' : m.operator? t = some g) : l = m := by
  cases t <;> cases l <;> cases h <;> cases m <;> first | rfl | cases h'

/-- A phrase stops before an operator of a looser level. -/
lemma stops_operator {op : Term → Term → Term} (h : l.operator? t = some op)
    (rank : l.rank < k.rank) : k.Stops (t :: tokens) := by
  rintro _ ⟨⟩ m hm
  cases h' : m.operator? t with
  | none => rfl
  | some g =>
    cases operator?_unique h h'
    omega

/-- What stands over a level binds closer. -/
lemma Over.rank (h : l.Over k) : l.rank < k.rank := by
  cases h <;> decide

/-- One level at most stands over another. -/
lemma Over.unique (h : l.Over k) (h' : l.Over m) : k = m := by
  cases h <;> cases h' <;> rfl

/-- Every chain stops at a closing parenthesis. -/
lemma stops_rightParen : l.Stops (.rightParen :: tokens) := by
  rintro _ ⟨⟩ m -
  cases m <;> rfl

/-- Every chain stops at a semicolon. -/
lemma stops_semicolon : l.Stops (.semicolon :: tokens) := by
  rintro _ ⟨⟩ m -
  cases m <;> rfl

end Level

/-- Behind an operand of a chain no tighter phrase goes on. -/
lemma Chain.stops {l k : Level} (above : l.Over k) (c : Chain l k) {rest : List Token}
    (h : l.Stops rest) : k.Stops (c.tokens ++ rest) := by
  cases c with
  | done => exact h.tighter (Nat.le_of_lt above.rank)
  | more mark op eq operand rest => exact Level.stops_operator eq above.rank

/-! ## How a phrase begins -/

/-- The token can stand at the front of an operand. -/
def Token.starts : Token → Bool
  | .word _ => true
  | .quoted _ => true
  | .minus => true
  | .bang => true
  | .leftParen => true
  | _ => false

/-- A phrase begins with a token that starts an operand. -/
lemma Phrase.exists_cons : {l : Level} → (p : Phrase l) →
    ∃ t ts, p.tokens = t :: ts ∧ t.starts = true
  | _, .chain _ first rest => by
    obtain ⟨t, ts, eq, starts⟩ := first.exists_cons
    exact ⟨t, ts ++ rest.tokens, by rw [tokens, eq, List.cons_append], starts⟩
  | _, .alone p => by
    rw [tokens]
    exact p.exists_cons
  | _, .compared mark _ _ p q => by
    obtain ⟨t, ts, eq, starts⟩ := p.exists_cons
    exact ⟨t, ts ++ mark :: q.tokens, by rw [tokens, eq, List.cons_append], starts⟩
  | _, .minus p => ⟨.minus, p.tokens, by rw [tokens], rfl⟩
  | _, .bang p => ⟨.bang, p.tokens, by rw [tokens], rfl⟩
  | _, .primary p => by
    rw [tokens]
    exact p.exists_cons
  | _, .word w => ⟨.word w, [], by rw [tokens], rfl⟩
  | _, .quoted s => ⟨.quoted s, [], by rw [tokens], rfl⟩
  | _, .enclosed p => ⟨.leftParen, _, by rw [tokens], rfl⟩
  | _, .choice c p q => ⟨.leftParen, _, by rw [tokens], rfl⟩

end ConfTree.Expression
