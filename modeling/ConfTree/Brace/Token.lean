import ConfTree.Text.Escaped

/-!
# Tokens of brace notation

Brace notation is made of texts, with or without quotes, and three marks. This module holds the
tokens, their names in messages, and the faults of a document.
-/

namespace ConfTree.Brace

/-- A token. -/
inductive Token where
  | word (text : String)
  | quoted (text : String)
  | opening
  | closing
  | equals
  deriving DecidableEq, Repr

/-- The name of a token in messages. -/
def Token.shown : Token → String
  | .word t => "Word(" ++ Text.shown t ++ ")"
  | .quoted t => "Quoted(" ++ Text.shown t ++ ")"
  | .opening => "Open"
  | .closing => "Close"
  | .equals => "Equals"

/-- The text that a token carries. -/
def Token.text? : Token → Option String
  | .word t => some t
  | .quoted t => some t
  | _ => none

/-- What a text stands for. -/
inductive Role where
  | name
  | value
  deriving DecidableEq, Repr

/-- The wording of a role. -/
def Role.message : Role → String
  | .name => "a name"
  | .value => "a value"

/-- Why a text is no document in brace notation. -/
inductive Fault where
  | unterminatedComment
  | unterminatedText
  | expected (role : Role) (found : Option Token)
  | unclosed
  | rootNotSection
  | extra (token : Token)
  | blankName (name : String)
  deriving DecidableEq, Repr

/-- The wording of a fault. -/
def Fault.message : Fault → String
  | .unterminatedComment => "unterminated comment"
  | .unterminatedText => "unterminated string"
  | .expected role none => "expected " ++ role.message ++ ", found end of input"
  | .expected role (some token) => "expected " ++ role.message ++ ", found " ++ token.shown
  | .unclosed => "missing '\x7d'"
  | .rootNotSection => "the root must be a section"
  | .extra token => "unexpected " ++ token.shown ++ " after the root section"
  | .blankName name => "invalid node name '" ++ name ++ "'"

end ConfTree.Brace
