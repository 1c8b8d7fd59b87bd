import ConfTree.Decimal.Layout
import ConfTree.Document.Data
import ConfTree.Toml.Datetime
import ConfTree.Toml.Quoted

/-!
# Values of table documents

The scalars of table documents, and how a value is written within a line. The entries of a table
keep their order.
-/

namespace ConfTree.Toml

/-- A scalar. -/
inductive Scalar where
  | bool (b : Bool)
  | int (i : Int)
  | float (x : Float)
  /-- A date, a time, or both. -/
  | datetime (chars : List Char)
  | text (s : String)

/-- A value. -/
abbrev Value := Document.Data Scalar

/-- A scalar as it is written. -/
def Scalar.chars : Scalar → List Char
  | .bool b => (Text.truthText b).toList
  | .int i => (Text.integerText i).toList
  | .float x => (Decimal.Layout.table.render x).toList
  | .datetime chars => chars
  | .text s => textChars s.toList

/-- The value is a table. -/
def isTable : Value → Bool
  | .table _ => true
  | _ => false

/-- Texts with commas between them. -/
def separated : List (List Char) → List Char
  | [] => []
  | [t] => t
  | t :: ts => t ++ ',' :: ' ' :: separated ts

/-- Entries in braces. -/
def bracedEntries (entries : List (List Char)) : List Char :=
  if entries.isEmpty then ['{', '}'] else '{' :: ' ' :: separated entries ++ [' ', '}']

/-- A key with the text of its value. -/
def entryChars (key : String) (value : List Char) : List Char :=
  keyChars key.toList ++ ' ' :: '=' :: ' ' :: value

mutual

/-- A value on a line. -/
def inlineChars : Value → List Char
  | .scalar s => s.chars
  | .array items => '[' :: separated (inlineItems items) ++ [']']
  | .table fields => bracedEntries (inlineFields fields)

/-- The items of an array on a line. -/
def inlineItems : List Value → List (List Char)
  | [] => []
  | item :: items => inlineChars item :: inlineItems items

/-- The entries of a table on a line. -/
def inlineFields : List (String × Value) → List (List Char)
  | [] => []
  | (key, value) :: fields => entryChars key (inlineChars value) :: inlineFields fields

end

/-- The text of a scalar as the value of a node. A date or a time is taken for a table of one
entry. -/
def Scalar.toText : Scalar → String
  | .text s => s
  | .datetime chars =>
    String.ofList (bracedEntries [entryChars datetimeKey (textChars chars)])
  | s => String.ofList s.chars

/-- The text of any value as the value of a node. -/
def valueText : Value → String
  | .scalar s => s.toText
  | value => String.ofList (inlineChars value)

end ConfTree.Toml
