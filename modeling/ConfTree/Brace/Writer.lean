import ConfTree.Text.Blank
import ConfTree.Tree.Subtree

/-!
# Writing brace notation

A text is quoted if a reader would not take it back as one word. A section without entries ends in
`{}`; any other opens its brace on a line of its own and lists its attributes, then its child
sections.
-/

namespace ConfTree.Brace

/-- The characters that no word holds, or that a reader would not take as they are. -/
def isSpecial (c : Char) : Bool :=
  Text.isBlank c || c == '{' || c == '}' || c == '=' || c == '"' || c == '\'' || c == '\\'

/-- The text starts like a comment. -/
def startsComment : List Char → Bool
  | '/' :: '/' :: _ => true
  | '/' :: '*' :: _ => true
  | _ => false

/-- The text has to stand in quotes. -/
def needsQuotes (cs : List Char) : Bool := cs.isEmpty || startsComment cs || cs.any isSpecial

/-- A character inside quotes. -/
def escapeChar (c : Char) : List Char :=
  if c = '"' then ['\\', '"']
  else if c = '\\' then ['\\', '\\']
  else if c = '\n' then ['\\', 'n']
  else if c = '\r' then ['\\', 'r']
  else if c = '\t' then ['\\', 't']
  else [c]

/-- A text as it is written. -/
def quote (cs : List Char) : List Char :=
  if needsQuotes cs then '"' :: cs.flatMap escapeChar ++ ['"'] else cs

/-- A name with its value. -/
def headerChars (name : String) (value : Option String) : List Char :=
  quote name.toList ++
    match value with
    | none => []
    | some v => '=' :: quote v.toList

/-- The blanks in front of an entry. -/
def indentation (depth : Nat) : List Char := List.replicate (2 * depth) ' '

/-- An attribute, on a line of its own. -/
def attributeLine (depth : Nat) (a : Attribute) : List Char :=
  indentation depth ++ headerChars a.name a.value ++ ['\n']

mutual

/-- A section, with all below it. -/
def sectionLines (depth : Nat) : Subtree → List Char
  | .mk _ name value attributes children =>
    let header := indentation depth ++ headerChars name value
    if attributes.isEmpty && children.isEmpty then header ++ ['{', '}', '\n']
    else
      header ++ '\n' :: indentation depth ++ ['{', '\n'] ++
        attributes.flatMap (attributeLine (depth + 1)) ++ sectionsLines (depth + 1) children ++
        indentation depth ++ ['}', '\n']

/-- Sections one after the other. -/
def sectionsLines (depth : Nat) : List Subtree → List Char
  | [] => []
  | t :: ts => sectionLines depth t ++ sectionsLines depth ts

end

/-- A document whose root is the given section. -/
def write (t : Subtree) : String := String.ofList (sectionLines 0 t)

end ConfTree.Brace
