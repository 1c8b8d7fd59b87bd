import ConfTree.Text.Printable

/-!
# Texts shown to a reader

A message that quotes a text shows it between double quotes, so that every character can be told
from its neighbours: quotes and backslashes are escaped, and what cannot be printed is shown by its
code point.
-/

namespace ConfTree.Text

/-- A character by its code point, as in `\u{e000}`. -/
def codePointChars (c : Char) : List Char :=
  ['\\', 'u', '{'] ++ Nat.toDigits 16 c.toNat ++ ['}']

/-- A character as it stands between the quotes. -/
def shownChar (c : Char) : List Char :=
  if c = '"' then ['\\', '"']
  else if c = '\\' then ['\\', '\\']
  else if c = '\n' then ['\\', 'n']
  else if c = '\r' then ['\\', 'r']
  else if c = '\t' then ['\\', 't']
  else if c.toNat = 0 then ['\\', '0']
  else if graphemeExtending.contains c || nonPrinting.contains c then codePointChars c
  else [c]

/-- The text between double quotes. -/
def shown (s : String) : String := String.ofList ('"' :: s.toList.flatMap shownChar ++ ['"'])

/-- An optional text, with its presence told. -/
def shownOption : Option String → String
  | none => "None"
  | some s => "Some(" ++ shown s ++ ")"

end ConfTree.Text
