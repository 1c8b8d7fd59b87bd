import ConfTree.Expression.Token
import ConfTree.Expression.Value

/-!
# Terms of expressions

Operators bind in this order, from loose to tight: either, both, comparison, sum, product, sign. All
but comparisons group to the left, and a comparison does not follow another one. A choice is written
`(? condition ; first ; second)`.

Each level is a chain of operands of the next level, and the level of signs is the only one that
recurs, through its operands and through parentheses. It takes a token with every step, so the
number of tokens bounds the recursion.
-/

namespace ConfTree.Expression

/-- An operator on two numbers, or a comparison. -/
inductive Operator where
  | add | sub | mul | div | rem
  | less | atMost | greater | atLeast | equal | unequal
  deriving DecidableEq, Repr

/-- A term. -/
inductive Term where
  | literal (v : Value)
  | negate (t : Term)
  | not (t : Term)
  | both (l r : Term)
  | either (l r : Term)
  | binary (op : Operator) (l r : Term)
  | choice (condition first second : Term)

/-- A reader of terms at the front of a list of tokens. -/
abbrev TermReader := List Token → Except Fault (Term × List Token)

/-- The operators of products. -/
def productOperator? : Token → Option (Term → Term → Term)
  | .star => some (.binary .mul)
  | .slash => some (.binary .div)
  | .percent => some (.binary .rem)
  | _ => none

/-- The operators of sums. -/
def sumOperator? : Token → Option (Term → Term → Term)
  | .plus => some (.binary .add)
  | .minus => some (.binary .sub)
  | _ => none

/-- The comparisons. -/
def comparison? : Token → Option (Term → Term → Term)
  | .less => some (.binary .less)
  | .atMost => some (.binary .atMost)
  | .greater => some (.binary .greater)
  | .atLeast => some (.binary .atLeast)
  | .equal => some (.binary .equal)
  | .unequal => some (.binary .unequal)
  | _ => none

/-- The connective that asks for both sides. -/
def both? : Token → Option (Term → Term → Term)
  | .both => some .both
  | _ => none

/-- The connective that asks for either side. -/
def either? : Token → Option (Term → Term → Term)
  | .either => some .either
  | _ => none

/-- Goes on with a chain whose part so far is `left`, for at most `fuel` operators. -/
def chainFrom (op? : Token → Option (Term → Term → Term)) (operand : TermReader) (left : Term) :
    Nat → TermReader
  | _, [] => .ok (left, [])
  | 0, tokens => .ok (left, tokens)
  | fuel + 1, token :: tokens =>
    match op? token with
    | none => .ok (left, token :: tokens)
    | some op =>
      match operand tokens with
      | .error fault => .error fault
      | .ok (right, rest) => chainFrom op? operand (op left right) fuel rest

/-- A chain of operands, grouped to the left. -/
def chain (op? : Token → Option (Term → Term → Term)) (operand : TermReader) : TermReader :=
  fun tokens =>
    match operand tokens with
    | .error fault => .error fault
    | .ok (left, rest) => chainFrom op? operand left rest.length rest

/-- One operand, or two with an operator between them. -/
def pair (op? : Token → Option (Term → Term → Term)) (operand : TermReader) : TermReader :=
  fun tokens =>
    match operand tokens with
    | .error fault => .error fault
    | .ok (left, rest) => chainFrom op? operand left 1 rest

/-- The loosest level over a reader of signed operands. -/
def looseLevel (operand : TermReader) : TermReader :=
  chain either? <| chain both? <| pair comparison? <| chain sumOperator? <|
    chain productOperator? operand

/-- Takes the expected token. -/
def takeExpected (token : Token) : List Token → Except Fault (List Token)
  | [] => .error (.expected token none)
  | t :: tokens => if t = token then .ok tokens else .error (.expected token (some t))

/-- A term in parentheses, whose opening one is already taken. -/
def enclosed (inner : TermReader) : TermReader := fun tokens => do
  let (term, rest) ← inner tokens
  let rest ← takeExpected .rightParen rest
  return (term, rest)

/-- A choice, whose opening marks are already taken. -/
def choiceOf (inner : TermReader) : TermReader := fun tokens => do
  let (condition, rest) ← inner tokens
  let rest ← takeExpected .semicolon rest
  let (first, rest) ← inner rest
  let rest ← takeExpected .semicolon rest
  let (second, rest) ← inner rest
  let rest ← takeExpected .rightParen rest
  return (.choice condition first second, rest)

/-- The level of signs, for lists of less than `fuel` tokens. -/
def signed : Nat → TermReader
  | _, [] => .error .unexpectedEnd
  | 0, _ => .error .unexpectedEnd
  | fuel + 1, token :: tokens =>
    match token with
    | .minus => do
      let (t, rest) ← signed fuel tokens
      return (.negate t, rest)
    | .bang => do
      let (t, rest) ← signed fuel tokens
      return (.not t, rest)
    | .word w => .ok (.literal (.ofWord w), tokens)
    | .quoted s => .ok (.literal (.text s), tokens)
    | .leftParen =>
      match tokens with
      | .question :: tokens => choiceOf (looseLevel (signed fuel)) tokens
      | tokens => enclosed (looseLevel (signed fuel)) tokens
    | other => .error (.unexpected other)

/-- The term at the front of a list of tokens. -/
def readTerm (tokens : List Token) : Except Fault (Term × List Token) :=
  looseLevel (signed (tokens.length + 1)) tokens

/-- The term that a list of tokens spells. -/
def Term.ofTokens (tokens : List Token) : Except Fault Term :=
  match readTerm tokens with
  | .error fault => .error fault
  | .ok (term, []) => .ok term
  | .ok (_, extra :: _) => .error (.unexpected extra)

end ConfTree.Expression
