import ConfTree.Error
import ConfTree.Text.Blank
import ConfTree.Text.Integer
import ConfTree.Text.Quotes

/-!
# Path texts

A path text is an optional `!` and alternatives with `;` or `|` between them. An alternative is an
optional `/` and segments with `/` between them. A segment is `.`, `..`, an attribute by name or
position, or a section by name or position or by the value of one of its attributes.
-/

namespace ConfTree.Path

/-- Which of the sections of a name is meant. -/
inductive Selector where
  | index (n : Nat)
  | matching (key value : String)
  deriving DecidableEq, Repr

/-- A segment of a path. -/
inductive Segment where
  | current
  | parent
  | child (name : Option String) (selector : Option Selector)
  | attributeNamed (name : String)
  | attributeAt (index : Nat)
  deriving DecidableEq, Repr

/-- Cuts a text at separators outside of brackets. Inside brackets, quotes hide brackets. The part
so far is `current`, last character first. -/
def splitFrom (separator : Char → Bool) (depth : Nat) (quote : Option Char) (current : List Char) :
    List Char → List (List Char)
  | [] => [current.reverse]
  | c :: cs =>
    match quote with
    | some q => splitFrom separator depth (if c = q then none else some q) (c :: current) cs
    | none =>
      if (c = '\'' || c = '"') && 0 < depth then
        splitFrom separator depth (some c) (c :: current) cs
      else if c = '[' then splitFrom separator (depth + 1) none (c :: current) cs
      else if c = ']' then splitFrom separator (depth - 1) none (c :: current) cs
      else if depth = 0 && separator c then
        current.reverse :: splitFrom separator depth none [] cs
      else splitFrom separator depth none (c :: current) cs

/-- The parts of a text between separators outside of brackets. -/
def splitOutside (separator : Char → Bool) (cs : List Char) : List (List Char) :=
  splitFrom separator 0 none [] cs

/-- The list without the given last character, if it ends in it. -/
def dropEnd? (c : Char) (cs : List Char) : Option (List Char) :=
  if cs.getLast? = some c then some cs.dropLast else none

/-- A position, written as a number that fits a machine word. -/
def readIndex (cs : List Char) : Option Nat :=
  (Text.IntegerRange.unsigned64.read (Text.trimChars cs)).toOption.map Int.toNat

/-- What stands between the brackets of a section. -/
def readSelector (cs : List Char) : Option Selector :=
  match cs.dropWhile (· != '=') with
  | [] => (readIndex cs).map .index
  | _ :: value =>
    let left := Text.trimChars (cs.takeWhile (· != '='))
    let key := Text.trimChars (left.dropWhile (· == '$'))
    if key.isEmpty then none
    else
      some (.matching (String.ofList key)
        (String.ofList (Text.unquote (Text.trimChars value))))

/-- What stands after the mark of an attribute. -/
def readAttribute (cs : List Char) : Except PathFault Segment :=
  match Text.trimChars cs with
  | [] => .error .missingAttributeName
  | '[' :: inner =>
    match dropEnd? ']' inner with
    | none => .error .unclosedIndexer
    | some index =>
      match readIndex index with
      | some n => .ok (.attributeAt n)
      | none => .error .indexerNotANumber
  | name =>
    if name.contains '[' || name.contains ']' then .error .attributeWithSelector
    else .ok (.attributeNamed (String.ofList name))

/-- The name of a section, which may be left out. -/
def readSectionName (cs : List Char) : Option String :=
  let name := Text.trimChars cs
  if name.isEmpty then none else some (String.ofList name)

/-- A section, by name or by what stands in brackets. -/
def readSection (cs : List Char) : Except PathFault Segment :=
  match cs.dropWhile (· != '[') with
  | [] =>
    if cs.contains ']' then .error .strayBracket else .ok (.child (readSectionName cs) none)
  | _ :: inner =>
    match dropEnd? ']' inner with
    | none => .error .unclosedSelector
    | some inner =>
      match readSelector inner with
      | none => .error .invalidSelector
      | some selector =>
        .ok (.child (readSectionName (cs.takeWhile (· != '['))) (some selector))

/-- The segment that a trimmed text spells. -/
def readSegment (cs : List Char) : Except PathFault Segment :=
  match cs with
  | ['.'] => .ok .current
  | ['.', '.'] => .ok .parent
  | '$' :: cs => readAttribute cs
  | cs => readSection cs

/-- Reads segments from the left, up to the first malformed one. -/
def readSegments : List (List Char) → Except PathFault (List Segment)
  | [] => .ok []
  | cs :: rest => do
    let segment ← readSegment cs
    let segments ← readSegments rest
    return segment :: segments

/-- An alternative: whether it starts at the root, and its segments. -/
structure Alternative where
  fromRoot : Bool
  segments : List Segment
  deriving DecidableEq, Repr

/-- Reads a trimmed alternative. Blank segments are left out. -/
def Alternative.read (cs : List Char) : Except PathFault Alternative := do
  let parts := ((splitOutside (· == '/') cs).map Text.trimChars).filter fun p => !p.isEmpty
  let segments ← readSegments parts
  return ⟨cs.head? = some '/', segments⟩

/-- A path text taken apart: whether a node is required, and the texts of its alternatives. -/
structure Outline where
  required : Bool
  alternatives : List (List Char)
  deriving DecidableEq, Repr

/-- The alternatives of a text. Blank ones are left out. -/
def readAlternatives (cs : List Char) : List (List Char) :=
  ((splitOutside (fun c => c == ';' || c == '|') cs).map Text.trimChars).filter fun p => !p.isEmpty

/-- Takes a path text apart. -/
def Outline.read (cs : List Char) : Outline :=
  match Text.trimChars cs with
  | '!' :: body => ⟨true, readAlternatives body⟩
  | body => ⟨false, readAlternatives body⟩

end ConfTree.Path
