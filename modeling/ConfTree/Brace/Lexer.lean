import ConfTree.Brace.Token
import ConfTree.Text.Blank

/-!
# Lexing brace notation

Blanks and comments separate tokens. A comment starts only where a token could, so slashes within a
word are part of it. Every token is kept with the text that is left after it, which tells its line.
-/

namespace ConfTree.Brace

/-- Where a scan for the next token stands. -/
inductive Trivia where
  | between
  | lineComment
  /-- Inside a block comment; the flag tells that a star was just read. -/
  | blockComment (star : Bool)

/-- Skips blanks and comments. -/
def skipFrom : Trivia → List Char → Except Fault (List Char)
  | .between, [] => .ok []
  | .between, '/' :: '/' :: cs => skipFrom .lineComment cs
  | .between, '/' :: '*' :: cs => skipFrom (.blockComment false) cs
  | .between, c :: cs => if Text.isBlank c then skipFrom .between cs else .ok (c :: cs)
  | .lineComment, [] => .ok []
  | .lineComment, c :: cs => skipFrom (if c = '\n' then .between else .lineComment) cs
  | .blockComment _, [] => .error .unterminatedComment
  | .blockComment star, c :: cs =>
    skipFrom (if star && c = '/' then .between else .blockComment (c == '*')) cs

/-- Skips blanks and comments in front of a token. -/
def skipTrivia (cs : List Char) : Except Fault (List Char) := skipFrom .between cs

/-- The character that a backslash and `c` stand for in a quoted text. -/
def unescape (c : Char) : Char :=
  if c = 'n' then '\n' else if c = 'r' then '\r' else if c = 't' then '\t' else c

/-- Takes a quoted text, whose opening quote is already taken, up to its closing quote. -/
def takeQuoted (quote : Char) : List Char → Option (List Char × List Char)
  | [] => none
  | '\\' :: c :: cs => (takeQuoted quote cs).map fun (text, rest) => (unescape c :: text, rest)
  | c :: cs =>
    if c = quote then some ([], cs)
    else if c = '\\' then none
    else (takeQuoted quote cs).map fun (text, rest) => (c :: text, rest)

/-- The characters that a word goes on with. -/
def isWordChar (c : Char) : Bool := !(Text.isBlank c || c == '{' || c == '}' || c == '=')

/-- Takes the rest of a token whose first character is `c`. -/
def takeToken (c : Char) (cs : List Char) : Except Fault (Token × List Char) :=
  if c = '{' then .ok (.opening, cs)
  else if c = '}' then .ok (.closing, cs)
  else if c = '=' then .ok (.equals, cs)
  else if c = '"' || c = '\'' then
    match takeQuoted c cs with
    | some (text, rest) => .ok (.quoted (String.ofList text), rest)
    | none => .error .unterminatedText
  else .ok (.word (String.ofList (c :: cs.takeWhile isWordChar)), cs.dropWhile isWordChar)

/-- The next token and the text after it, unless the text is at its end. -/
def nextToken (cs : List Char) : Except Fault (Option (Token × List Char)) :=
  match skipTrivia cs with
  | .error fault => .error fault
  | .ok [] => .ok none
  | .ok (c :: cs) =>
    match takeToken c cs with
    | .error fault => .error fault
    | .ok (token, rest) => .ok (some (token, rest))

/-- What is left behind trivia is no longer than what was there. -/
theorem skipFrom_length {mode : Trivia} {cs rest : List Char} (h : skipFrom mode cs = .ok rest) :
    rest.length ≤ cs.length := by
  fun_induction skipFrom mode cs with
  | case1 => cases h; simp
  | case2 cs ih =>
    have := ih h
    simp only [List.length_cons]
    omega
  | case3 cs ih =>
    have := ih h
    simp only [List.length_cons]
    omega
  | case4 c cs _ _ _ ih =>
    have := ih h
    simp only [List.length_cons]
    omega
  | case5 => cases h; simp
  | case6 => cases h; simp
  | case7 c cs ih =>
    have := ih h
    simp only [List.length_cons]
    omega
  | case8 => cases h
  | case9 star c cs ih =>
    have := ih h
    simp only [List.length_cons]
    omega

/-- What is left behind a quoted text is no longer than what was there. -/
theorem takeQuoted_length {quote : Char} {cs text rest : List Char}
    (h : takeQuoted quote cs = some (text, rest)) : rest.length ≤ cs.length := by
  fun_induction takeQuoted quote cs generalizing text rest with
  | case1 => simp at h
  | case2 c cs ih =>
    obtain ⟨⟨t, r⟩, ht, he⟩ := Option.map_eq_some_iff.1 h
    obtain ⟨-, rfl⟩ := Prod.mk.inj he
    have := ih ht
    simp only [List.length_cons]
    omega
  | case3 =>
    obtain ⟨-, rfl⟩ := Prod.mk.inj (Option.some.inj h)
    simp
  | case4 => simp at h
  | case5 c cs _ _ _ ih =>
    obtain ⟨⟨t, r⟩, ht, he⟩ := Option.map_eq_some_iff.1 h
    obtain ⟨-, rfl⟩ := Prod.mk.inj he
    have := ih ht
    simp only [List.length_cons]
    omega

/-- What is left behind a token is no longer than what stands behind its first character. -/
theorem takeToken_length {c : Char} {cs rest : List Char} {t : Token}
    (h : takeToken c cs = .ok (t, rest)) : rest.length ≤ cs.length := by
  unfold takeToken at h
  split at h
  · cases h; exact Nat.le_refl _
  split at h
  · cases h; exact Nat.le_refl _
  split at h
  · cases h; exact Nat.le_refl _
  split at h
  · split at h
    · rename_i ht
      cases h
      exact takeQuoted_length ht
    · cases h
  · cases h
    exact (List.dropWhile_suffix _).length_le

/-- A token takes at least one character. -/
theorem nextToken_length {cs rest : List Char} {t : Token}
    (h : nextToken cs = .ok (some (t, rest))) : rest.length < cs.length := by
  unfold nextToken at h
  split at h
  · cases h
  · cases h
  · rename_i c r hs
    have hs := skipFrom_length hs
    split at h
    · cases h
    · rename_i ht
      have ht := takeToken_length ht
      cases h
      simp only [List.length_cons] at hs
      omega

/-- A token with the text that is left after it. -/
structure Lexeme where
  token : Token
  rest : List Char
  deriving DecidableEq, Repr

/-- The tokens of a text up to its end or the first fault. -/
def lex (cs : List Char) : List Lexeme × Option Fault :=
  match h : nextToken cs with
  | .error fault => ([], some fault)
  | .ok none => ([], none)
  | .ok (some (token, rest)) =>
    have := nextToken_length h
    let (lexemes, fault) := lex rest
    (⟨token, rest⟩ :: lexemes, fault)
termination_by cs.length

/-- The number of line ends in a text. -/
def lineEnds (cs : List Char) : Nat := cs.countP (· == '\n')

end ConfTree.Brace
