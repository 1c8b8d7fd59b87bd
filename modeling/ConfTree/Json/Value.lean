import ConfTree.Document.Data
import ConfTree.Json.Number

/-!
# Object documents

The values of object documents, and how they are written: on one line, or with two blanks of
indentation for every level.
-/

namespace ConfTree.Json

/-- A scalar. -/
inductive Scalar where
  | null
  | bool (b : Bool)
  | number (n : Number)
  | text (s : String)

/-- A value. -/
abbrev Value := Document.Data Scalar

/-- A character inside quotes. -/
def escapeChar (c : Char) : List Char :=
  if c = '"' then ['\\', '"']
  else if c = '\\' then ['\\', '\\']
  else if c = '\n' then ['\\', 'n']
  else if c = '\r' then ['\\', 'r']
  else if c = '\t' then ['\\', 't']
  else if c.toNat = 8 then ['\\', 'b']
  else if c.toNat = 12 then ['\\', 'f']
  else if c.toNat < 0x20 then
    ['\\', 'u', '0', '0', Nat.digitChar (c.toNat / 16), Nat.digitChar (c.toNat % 16)]
  else [c]

/-- A text in quotes. -/
def quote (s : String) : List Char := '"' :: s.toList.flatMap escapeChar ++ ['"']

/-- A scalar as it is written. -/
def Scalar.chars : Scalar → List Char
  | .null => "null".toList
  | .bool b => (Text.truthText b).toList
  | .number n => n.toText.toList
  | .text s => quote s

mutual

/-- A value on one line. -/
def compact : Value → List Char
  | .scalar s => s.chars
  | .array items => '[' :: compactItems items ++ [']']
  | .table fields => '{' :: compactFields fields ++ ['}']

/-- Items with commas between them. -/
def compactItems : List Value → List Char
  | [] => []
  | [item] => compact item
  | item :: items => compact item ++ ',' :: compactItems items

/-- Fields with commas between them. -/
def compactFields : List (String × Value) → List Char
  | [] => []
  | [(key, value)] => quote key ++ ':' :: compact value
  | (key, value) :: fields => quote key ++ ':' :: compact value ++ ',' :: compactFields fields

end

/-- A new line with the indentation of a level. -/
def newLine (depth : Nat) : List Char := '\n' :: List.replicate (2 * depth) ' '

mutual

/-- A value with indentation. -/
def pretty (depth : Nat) : Value → List Char
  | .scalar s => s.chars
  | .array [] => ['[', ']']
  | .array items => '[' :: prettyItems (depth + 1) items ++ newLine depth ++ [']']
  | .table [] => ['{', '}']
  | .table fields => '{' :: prettyFields (depth + 1) fields ++ newLine depth ++ ['}']

/-- Items on lines of their own. -/
def prettyItems (depth : Nat) : List Value → List Char
  | [] => []
  | [item] => newLine depth ++ pretty depth item
  | item :: items => newLine depth ++ pretty depth item ++ ',' :: prettyItems depth items

/-- Fields on lines of their own. -/
def prettyFields (depth : Nat) : List (String × Value) → List Char
  | [] => []
  | [(key, value)] => newLine depth ++ quote key ++ ':' :: ' ' :: pretty depth value
  | (key, value) :: fields =>
    newLine depth ++ quote key ++ ':' :: ' ' :: pretty depth value ++ ',' ::
      prettyFields depth fields

end

/-- The text of a scalar as the value of a node. -/
def Scalar.text? : Scalar → Option String
  | .null => none
  | .text s => some s
  | s => some (String.ofList s.chars)

/-- The text of any value as the value of a node. -/
def valueText? : Value → Option String
  | .scalar s => s.text?
  | value => some (String.ofList (compact value))

end ConfTree.Json
