import ConfTree.Text.Letters
import ConfTree.Tree.Subtree
import ConfTree.Xml.Entity

/-!
# Writing markup

A section is an element, its attributes stand in the tag and its value is written as character data.
A name that markup does not allow, or an attribute that comes twice, cannot be written.
-/

namespace ConfTree.Xml

/-- The characters that a name starts with. -/
def isNameStart (c : Char) : Bool := Text.letters.contains c || c == '_'

/-- The characters that a name goes on with. -/
def isNameChar (c : Char) : Bool :=
  Text.letters.contains c || Text.numbers.contains c || c == '_' || c == '-' || c == '.'

/-- The name can be written. -/
def isName (name : String) : Bool :=
  match name.toList with
  | [] => false
  | c :: cs => isNameStart c && cs.all isNameChar

/-- A name as it is written. -/
def nameChars (name : String) : Except Document.Fault (List Char) :=
  if isName name then .ok name.toList else .error (.invalidName name)

/-- The attributes of a tag. The names that were written before are `seen`, and `path` is the path
of the section. -/
def attributesChars (path : String) (seen : List String) :
    List Attribute → Except Document.Fault (List Char)
  | [] => .ok []
  | a :: rest => do
    let name ← nameChars a.name
    if seen.contains a.name then throw (.duplicateAttribute a.name path)
    let others ← attributesChars path (a.name :: seen) rest
    return ' ' :: name ++ '=' :: '"' :: attributeChars (a.value.getD "").toList ++ '"' :: others

/-- The blanks in front of an element. -/
def indentation (depth : Nat) : List Char := List.replicate (2 * depth) ' '

mutual

/-- An element, with all below it. -/
def elementLines (pathOf : NodeId → String) (depth : Nat) :
    Subtree → Except Document.Fault (List Char)
  | .mk id name value attributes children => do
    let tag ← nameChars name
    let attributes ← attributesChars (pathOf id) [] attributes
    let head := indentation depth ++ '<' :: tag ++ attributes
    let text := (value.getD "").toList
    if text.isEmpty && children.isEmpty then return head ++ ['/', '>', '\n']
    let inner ← elementsLines pathOf (depth + 1) children
    let body := if children.isEmpty then [] else '\n' :: inner ++ indentation depth
    return head ++ '>' :: cdataChars text ++ body ++ '<' :: '/' :: tag ++ ['>', '\n']

/-- Elements one after the other. -/
def elementsLines (pathOf : NodeId → String) (depth : Nat) :
    List Subtree → Except Document.Fault (List Char)
  | [] => .ok []
  | t :: ts => do
    let first ← elementLines pathOf depth t
    let others ← elementsLines pathOf depth ts
    return first ++ others

end

/-- A document whose root is the given section. -/
def write (pathOf : NodeId → String) (t : Subtree) : Except Document.Fault String := do
  let cs ← elementLines pathOf 0 t
  return String.ofList cs

end ConfTree.Xml
