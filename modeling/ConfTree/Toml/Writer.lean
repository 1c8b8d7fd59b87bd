import ConfTree.Toml.Value

/-!
# Writing table documents

A document is a list of blocks with a blank line between them: the entries of a table, under its
header. Arrays of nothing but tables are written as tables under repeated headers, any other value
on one line. Apart from this the entries of a table keep their order.
-/

namespace ConfTree.Toml

/-- The value is written in blocks of its own. -/
def isBlock : Value → Bool
  | .scalar _ => false
  | .array items => !items.isEmpty && items.all isTable
  | .table _ => true

/-- The lines of the entries of a table that are no blocks. -/
def entryLines (fields : List (String × Value)) : List Char :=
  (fields.filter fun f => !isBlock f.2).flatMap fun f =>
    entryChars f.1 (inlineChars f.2) ++ ['\n']

/-- A path in a header. -/
def headerPath : List String → List Char
  | [] => []
  | [key] => keyChars key.toList
  | key :: keys => keyChars key.toList ++ '.' :: headerPath keys

/-- The block of a table under its header. A table of nothing but blocks has none of its own. -/
def tableBlock (path : List String) (fields : List (String × Value)) : List (List Char) :=
  let lines := entryLines fields
  if lines.isEmpty && !fields.isEmpty then []
  else ['[' :: headerPath path ++ ']' :: '\n' :: lines]

/-- The block of a table under a repeated header. -/
def repeatedBlock (path : List String) (fields : List (String × Value)) : List Char :=
  '[' :: '[' :: headerPath path ++ ']' :: ']' :: '\n' :: entryLines fields

mutual

/-- The blocks of a value under its path. -/
def valueBlocks (path : List String) : Value → List (List Char)
  | .scalar _ => []
  | .array items => if items.all isTable then itemsBlocks path items else []
  | .table fields => tableBlock path fields ++ fieldsBlocks path fields

/-- The blocks of tables under repeated headers. -/
def itemsBlocks (path : List String) : List Value → List (List Char)
  | [] => []
  | item :: items => itemBlocks path item ++ itemsBlocks path items

/-- The blocks of a table under a repeated header. -/
def itemBlocks (path : List String) : Value → List (List Char)
  | .table fields => repeatedBlock path fields :: fieldsBlocks path fields
  | _ => []

/-- The blocks of the entries of a table. -/
def fieldsBlocks (path : List String) : List (String × Value) → List (List Char)
  | [] => []
  | (key, value) :: fields => valueBlocks (path ++ [key]) value ++ fieldsBlocks path fields

end

/-- Texts with a line end after all but the last. -/
def joinedBlocks : List (List Char) → List Char
  | [] => []
  | [block] => block
  | block :: blocks => block ++ '\n' :: joinedBlocks blocks

/-- A document whose root has the given entries. -/
def documentChars (fields : List (String × Value)) : List Char :=
  let lines := entryLines fields
  let own := if lines.isEmpty then [] else [lines]
  joinedBlocks (own ++ fieldsBlocks [] fields)

end ConfTree.Toml
