import ConfTree.Text.Blank
import ConfTree.Text.Escaped

/-!
# Tokens of expressions

An expression is a text of words, quoted texts and operators. This module holds the tokens, their
names in messages, the faults of a text that is no expression, and the lexer.
-/

namespace ConfTree.Expression

/-- A token. -/
inductive Token where
  | word (text : String)
  | quoted (text : String)
  | plus | minus | star | slash | percent
  | less | atMost | greater | atLeast | equal | unequal
  | both | either | bang
  | leftParen | rightParen | question | semicolon
  deriving DecidableEq, Repr

/-- The name of a token in messages. -/
def Token.shown : Token → String
  | .word t => "Word(" ++ Text.shown t ++ ")"
  | .quoted t => "Str(" ++ Text.shown t ++ ")"
  | .plus => "Plus"
  | .minus => "Minus"
  | .star => "Star"
  | .slash => "Slash"
  | .percent => "Percent"
  | .less => "Lt"
  | .atMost => "Le"
  | .greater => "Gt"
  | .atLeast => "Ge"
  | .equal => "Eq"
  | .unequal => "Ne"
  | .both => "And"
  | .either => "Or"
  | .bang => "Bang"
  | .leftParen => "LParen"
  | .rightParen => "RParen"
  | .question => "Question"
  | .semicolon => "Semi"

/-- The name of a token that may be missing. -/
def Token.shownOption : Option Token → String
  | none => "None"
  | some t => "Some(" ++ t.shown ++ ")"

/-- Why an expression has no value. -/
inductive Fault where
  | singleEquals
  | singleConnective (mark : Char)
  | unterminatedText
  | unexpectedEnd
  | unexpected (token : Token)
  | expected (token : Token) (found : Option Token)
  | overflow
  | notNegatable (value : String)
  | notNumbers (left right : String)
  | divisionByZero
  deriving DecidableEq, Repr

/-- The wording of a fault. -/
def Fault.message : Fault → String
  | .singleEquals => "single '=' (use '==')"
  | .singleConnective c =>
    String.ofList (("single '".toList ++ [c]) ++ "' (use '".toList ++ [c, c] ++ "')".toList)
  | .unterminatedText => "unterminated string"
  | .unexpectedEnd => "unexpected end of expression"
  | .unexpected t => "unexpected " ++ t.shown
  | .expected t found => "expected " ++ t.shown ++ ", found " ++ Token.shownOption found
  | .overflow => "integer overflow"
  | .notNegatable v => "cannot negate '" ++ v ++ "'"
  | .notNumbers l r => "'" ++ l ++ "' and '" ++ r ++ "' must both be numbers"
  | .divisionByZero => "division by zero"

/-- The characters that end a word because they start a token of their own. -/
def isOperatorChar (c : Char) : Bool := "+-*/%<>=!&|()?;'\"".toList.contains c

/-- The characters of a word. -/
def isWordChar (c : Char) : Bool := !Text.isBlank c && !isOperatorChar c

/-- The character that a backslash and `c` stand for in a quoted text. -/
def unescape (c : Char) : Char := if c = 'n' then '\n' else if c = 't' then '\t' else c

/-- Takes a quoted text, whose opening quote is already taken, up to its closing quote. -/
def takeQuoted (quote : Char) : List Char → Option (List Char × List Char)
  | [] => none
  | '\\' :: c :: cs => (takeQuoted quote cs).map fun (text, rest) => (unescape c :: text, rest)
  | c :: cs =>
    if c = quote then some ([], cs)
    else if c = '\\' then none
    else (takeQuoted quote cs).map fun (text, rest) => (c :: text, rest)

/-- Takes the second character of a token if it is `second`. -/
def takeSecond (second : Char) (long short : Token) : List Char → Token × List Char
  | [] => (short, [])
  | c :: cs => if c = second then (long, cs) else (short, c :: cs)

/-- Takes the rest of a token whose first character `c` is not blank. -/
def takeToken (c : Char) (cs : List Char) : Except Fault (Token × List Char) :=
  match c with
  | '+' => .ok (.plus, cs)
  | '-' => .ok (.minus, cs)
  | '*' => .ok (.star, cs)
  | '/' => .ok (.slash, cs)
  | '%' => .ok (.percent, cs)
  | '(' => .ok (.leftParen, cs)
  | ')' => .ok (.rightParen, cs)
  | '?' => .ok (.question, cs)
  | ';' => .ok (.semicolon, cs)
  | '<' => .ok (takeSecond '=' .atMost .less cs)
  | '>' => .ok (takeSecond '=' .atLeast .greater cs)
  | '!' => .ok (takeSecond '=' .unequal .bang cs)
  | '=' => match cs with
    | '=' :: rest => .ok (.equal, rest)
    | _ => .error .singleEquals
  | '&' => match cs with
    | '&' :: rest => .ok (.both, rest)
    | _ => .error (.singleConnective '&')
  | '|' => match cs with
    | '|' :: rest => .ok (.either, rest)
    | _ => .error (.singleConnective '|')
  | _ =>
    if c = '\'' || c = '"' then
      match takeQuoted c cs with
      | some (text, rest) => .ok (.quoted (String.ofList text), rest)
      | none => .error .unterminatedText
    else .ok (.word (String.ofList (c :: cs.takeWhile isWordChar)), cs.dropWhile isWordChar)

/-- What is left behind a quoted text is no longer than what was there. -/
theorem takeQuoted_length {quote : Char} {cs text rest : List Char}
    (h : takeQuoted quote cs = some (text, rest)) : rest.length ≤ cs.length := by
  fun_induction takeQuoted quote cs generalizing text rest with
  | case1 => simp at h
  | case2 c cs ih =>
    obtain ⟨⟨t, r⟩, ht, he⟩ := Option.map_eq_some_iff.1 h
    obtain ⟨-, rfl⟩ := Prod.mk.inj he
    have := ih ht
    simp only [List.length_cons]
    omega
  | case3 =>
    obtain ⟨-, rfl⟩ := Prod.mk.inj (Option.some.inj h)
    simp
  | case4 => simp at h
  | case5 c cs _ _ _ ih =>
    obtain ⟨⟨t, r⟩, ht, he⟩ := Option.map_eq_some_iff.1 h
    obtain ⟨-, rfl⟩ := Prod.mk.inj he
    have := ih ht
    simp only [List.length_cons]
    omega

/-- The second character of an operator is taken or left. -/
theorem takeSecond_length {second : Char} {long short : Token} {cs : List Char} :
    (takeSecond second long short cs).2.length ≤ cs.length := by
  cases cs with
  | nil => simp [takeSecond]
  | cons c cs => by_cases h : c = second <;> simp [takeSecond, h]

/-- A token is never followed by more than stood after its first character. -/
theorem takeToken_length {c : Char} {cs rest : List Char} {t : Token}
    (h : takeToken c cs = .ok (t, rest)) : rest.length ≤ cs.length := by
  have second : ∀ (s : Char) (l k : Token), takeSecond s l k cs = (t, rest) →
      rest.length ≤ cs.length := fun s l k e => by
    have := @takeSecond_length s l k cs
    rwa [e] at this
  unfold takeToken at h
  split at h
  all_goals first
    | (obtain ⟨-, rfl⟩ := Prod.mk.inj (Except.ok.inj h); exact Nat.le_refl _)
    | exact second _ _ _ (Except.ok.inj h)
    | skip
  · split at h
    · obtain ⟨-, rfl⟩ := Prod.mk.inj (Except.ok.inj h)
      simp
    · cases h
  · split at h
    · obtain ⟨-, rfl⟩ := Prod.mk.inj (Except.ok.inj h)
      simp
    · cases h
  · split at h
    · obtain ⟨-, rfl⟩ := Prod.mk.inj (Except.ok.inj h)
      simp
    · cases h
  · split at h
    · split at h
      · rename_i ht
        obtain ⟨-, rfl⟩ := Prod.mk.inj (Except.ok.inj h)
        exact takeQuoted_length ht
      · cases h
    · obtain ⟨-, rfl⟩ := Prod.mk.inj (Except.ok.inj h)
      exact (List.dropWhile_suffix _).length_le

/-- The tokens of a text. -/
def tokenize : List Char → Except Fault (List Token)
  | [] => .ok []
  | c :: cs =>
    if Text.isBlank c then tokenize cs
    else
      match h : takeToken c cs with
      | .error fault => .error fault
      | .ok (token, rest) =>
        have := takeToken_length h
        match tokenize rest with
        | .error fault => .error fault
        | .ok tokens => .ok (token :: tokens)
termination_by cs => cs.length

end ConfTree.Expression
