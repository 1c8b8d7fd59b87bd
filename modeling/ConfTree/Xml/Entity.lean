import ConfTree.Text.Hex

/-!
# Character references

Characters that markup needs for itself are written as references, by one of five names or by their
code point.
-/

namespace ConfTree.Xml

/-- The character with the given name. -/
def namedEntity? (name : List Char) : Option Char :=
  if name = "lt".toList then some '<'
  else if name = "gt".toList then some '>'
  else if name = "amp".toList then some '&'
  else if name = "apos".toList then some '\''
  else if name = "quot".toList then some '"'
  else none

/-- The character that a reference may name by its code point. -/
def referenced? (n : Nat) : Option Char := if n = 0 then none else Text.codePoint? n

/-- The character that the body of a reference stands for. -/
def entity? : List Char → Option Char
  | '#' :: 'x' :: cs => (Text.readDigits? Text.hexValue? 16 cs).bind referenced?
  | '#' :: cs => (Text.readDigits? Text.decimalValue? 10 cs).bind referenced?
  | name => namedEntity? name

/-- Replaces the references of a text. In a reference, `body` is what stands after the ampersand so
far, last character first. -/
def resolveFrom (body : Option (List Char)) : List Char → Option (List Char)
  | [] => if body.isSome then none else some []
  | c :: cs =>
    match body with
    | none =>
      if c = '&' then resolveFrom (some []) cs else (resolveFrom none cs).map (c :: ·)
    | some body =>
      if c = '&' then none
      else if c = ';' then
        match entity? body.reverse with
        | none => none
        | some e => (resolveFrom none cs).map (e :: ·)
      else resolveFrom (some (c :: body)) cs

/-- Replaces the references of a text, unless one is unknown or not closed. -/
def resolve (cs : List Char) : Option (List Char) := resolveFrom none cs

/-- A character as it stands in a quoted attribute. Line ends and tabs are written by their code
points, so that no reader takes them for spaces. -/
def attributeChar (c : Char) : List Char :=
  if c = '<' then "&lt;".toList
  else if c = '>' then "&gt;".toList
  else if c = '&' then "&amp;".toList
  else if c = '\'' then "&apos;".toList
  else if c = '"' then "&quot;".toList
  else if c = '\n' then "&#10;".toList
  else if c = '\r' then "&#13;".toList
  else if c = '\t' then "&#9;".toList
  else [c]

/-- A text as the value of an attribute. -/
def attributeChars (cs : List Char) : List Char := cs.flatMap attributeChar

/-- Splits every end mark of character data over two sections of it. -/
def splitEndMarks : List Char → List Char
  | ']' :: ']' :: '>' :: cs => "]]]]><![CDATA[>".toList ++ splitEndMarks cs
  | c :: cs => c :: splitEndMarks cs
  | [] => []

/-- A text as character data. -/
def cdataChars (cs : List Char) : List Char :=
  if cs.isEmpty then [] else "<![CDATA[".toList ++ splitEndMarks cs ++ "]]>".toList

end ConfTree.Xml
