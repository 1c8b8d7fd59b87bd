import ConfTree.Text.Blank

/-!
# Templates

A value is a template: a text with references `$( … )`, whose bodies may hold balanced parentheses.
The body `###` stands for the two characters that open a reference.
-/

namespace ConfTree

/-- A piece of a template. -/
inductive Piece where
  | char (c : Char)
  | escape
  | reference (body : List Char)
  /-- A reference that is never closed, with all that follows. -/
  | unclosed
  deriving DecidableEq, Repr

/-- The piece of a closed reference. -/
def Piece.ofBody (body : List Char) : Piece :=
  if Text.trimChars body = ['#', '#', '#'] then .escape else .reference body

/-- The pieces of a text. Inside a reference, the state is the number of inner parentheses that are
open and the body so far, last character first. -/
def piecesFrom : Option (Nat × List Char) → List Char → List Piece
  | none, [] => []
  | none, '$' :: '(' :: cs => piecesFrom (some (0, [])) cs
  | none, c :: cs => .char c :: piecesFrom none cs
  | some _, [] => [.unclosed]
  | some (depth, body), c :: cs =>
    if c = '(' then piecesFrom (some (depth + 1, c :: body)) cs
    else if c = ')' then
      match depth with
      | 0 => .ofBody body.reverse :: piecesFrom none cs
      | depth + 1 => piecesFrom (some (depth, c :: body)) cs
    else piecesFrom (some (depth, c :: body)) cs

/-- The pieces of a template. -/
def pieces (cs : List Char) : List Piece := piecesFrom none cs

/-- The text opens a reference somewhere. -/
def hasReference : List Char → Bool
  | '$' :: '(' :: _ => true
  | _ :: cs => hasReference cs
  | [] => false

end ConfTree
