import ConfTree.Tree.Edit
import ConfTree.Xml.Entity
import ConfTree.Xml.Event

/-!
# Reading markup

Elements are sections, and what their tags say are attributes. The text of an element is its value:
character data as it stands, other text without the blanks around it. How markup is cut into its
pieces is left to a tokenizer.
-/

namespace ConfTree.Xml

/-- An error of a document. -/
def fault (f : Document.Fault) : ConfigError := .unparsable .xml f

/-- Takes an attribute from the front of a tag: its name, its value as it is written, and the rest.
Nothing but space yields nothing, and `none` is a fault. -/
def takeAttribute (cs : List Char) : Option (Option (List Char × List Char × List Char)) :=
  match cs.dropWhile isSpace with
  | [] => some none
  | c :: cs =>
    let name := c :: cs.takeWhile fun c => !(isSpace c || c == '=')
    match (cs.dropWhile fun c => !(isSpace c || c == '=')).dropWhile isSpace with
    | '=' :: cs =>
      match cs.dropWhile isSpace with
      | [] => none
      | q :: cs =>
        if q = '"' || q = '\'' then
          match cs.dropWhile (· != q) with
          | [] => none
          | _ :: rest => some (some (name, cs.takeWhile (· != q), rest))
        else none
    | _ => none

/-- The attributes of a tag up to its end or the first fault, which the flag tells. A name must not
come twice. -/
def attributesWithin (seen : List (List Char)) :
    Nat → List Char → List (List Char × List Char) × Bool
  | 0, _ => ([], false)
  | fuel + 1, cs =>
    match takeAttribute cs with
    | none => ([], true)
    | some none => ([], false)
    | some (some (name, value, rest)) =>
      if seen.contains name then ([], true)
      else
        let (attributes, failed) := attributesWithin (name :: seen) fuel rest
        ((name, value) :: attributes, failed)

/-- The attributes that the content of a tag spells, up to the first fault. -/
def spelledAttributes (content : List Char) : List (List Char × List Char) × Bool :=
  attributesWithin [] (content.length + 1) (content.dropWhile fun c => !isSpace c)

/-- What the reader asks of a tokenizer. -/
structure Tokenizer where
  /-- The events of a text up to its end, or up to the first fault, which the flag tells. -/
  events : List Char → List Event × Bool
  /-- The name in the content of a tag. -/
  name : List Char → List Char
  /-- The attributes in the content of a tag with their values as they are written, up to the first
  fault, which the flag tells. -/
  attributes : List Char → List (List Char × List Char) × Bool
  /-- The text with its references replaced, unless one is unknown or not closed. -/
  resolve : List Char → Option (List Char)

/-- The tokenizer that documents are read with. -/
def tokenizer : Tokenizer := ⟨events, tagName, spelledAttributes, resolve⟩

variable (tokens : Tokenizer)

/-- Adds the attributes of a tag to a section. -/
def addAttributes (id : NodeId) (failed : Bool) : List (List Char × List Char) → Edit Unit
  | [] => if failed then throw (fault .malformed) else pure ()
  | (name, raw) :: rest =>
    match tokens.resolve raw with
    | none => throw (fault .malformed)
    | some value => do
      let _ ← Edit.addAttribute id (String.ofList name) (some (String.ofList value))
      addAttributes id failed rest

/-- Adds the attributes that the content of a tag spells. -/
def addTagAttributes (id : NodeId) (content : List Char) : Edit Unit :=
  let (attributes, failed) := tokens.attributes content
  addAttributes tokens id failed attributes

/-- An element that is not closed yet. -/
structure Frame where
  id : NodeId
  text : List Char
  /-- The text has character data in it, and is kept as it stands. -/
  verbatim : Bool

/-- The value that the text of an element stands for. -/
def Frame.value? (f : Frame) : Option String :=
  if f.verbatim then some (String.ofList f.text)
  else
    let trimmed := Text.trimChars f.text
    if trimmed.isEmpty then none else some (String.ofList trimmed)

/-- Opens an element below the innermost open one. -/
def openElement (frames : List Frame) (content : List Char) : Edit NodeId :=
  match frames with
  | [] => throw (fault .secondRoot)
  | frame :: _ => do
    let id ← Edit.addSection frame.id (String.ofList (tokens.name content)) none
    addTagAttributes tokens id content
    return id

/-- Reads the events after the tag of the root, with the innermost open element first. -/
def readEvents (failed : Bool) (frames : List Frame) : List Event → Edit Unit
  | [] =>
    if failed then throw (fault .malformed)
    else if frames.isEmpty then pure ()
    else throw (fault .unclosedElement)
  | .opening content :: events => do
    let id ← openElement tokens frames content
    readEvents failed (⟨id, [], false⟩ :: frames) events
  | .single content :: events => do
    let _ ← openElement tokens frames content
    readEvents failed frames events
  | .closing :: events =>
    match frames with
    | [] => throw (fault .malformed)
    | frame :: outer => do
      if let some value := frame.value? then Edit.setValue frame.id (some value)
      readEvents failed outer events
  | .text raw :: events =>
    match tokens.resolve raw with
    | none => throw (fault .malformed)
    | some text =>
      if text.all Text.isBlank then readEvents failed frames events
      else
        match frames with
        | [] => throw (fault .textOutsideRoot)
        | frame :: outer =>
          readEvents failed ({ frame with text := frame.text ++ text } :: outer) events
  | .cdata text :: events =>
    match frames with
    | [] => throw (fault .cdataOutsideRoot)
    | frame :: outer =>
      readEvents failed (⟨frame.id, frame.text ++ text, true⟩ :: outer) events
  | .ignored :: events => readEvents failed frames events

/-- Reads a document from the tag of its root on. -/
def readFrom (failed : Bool) (content : List Char) (frames : List Frame) (events : List Event) :
    Except ConfigError Configuration :=
  let body : Edit Unit := do
    addTagAttributes tokens Configuration.root content
    readEvents tokens failed frames events
  match body.apply (.withRoot (String.ofList (tokens.name content))) with
  | (.ok _, conf) => .ok conf
  | (.error e, _) => .error e

/-- Reads the events in front of the root. -/
def readDocument (failed : Bool) : List Event → Except ConfigError Configuration
  | [] => .error (fault (if failed then .malformed else .noRoot))
  | .opening content :: events =>
    readFrom tokens failed content [⟨Configuration.root, [], false⟩] events
  | .single content :: events => readFrom tokens failed content [] events
  | .closing :: _ => .error (fault .malformed)
  | .text raw :: events =>
    match tokens.resolve raw with
    | none => .error (fault .malformed)
    | some text =>
      if text.all Text.isBlank then readDocument failed events
      else .error (fault .textOutsideRoot)
  | .cdata _ :: _ => .error (fault .cdataOutsideRoot)
  | .ignored :: events => readDocument failed events

/-- Reads a document as the tokenizer cuts it. -/
def readWith (text : String) : Except ConfigError Configuration :=
  let (events, failed) := tokens.events text.toList
  readDocument tokens failed events

/-- Reads a document. -/
def read (text : String) : Except ConfigError Configuration := readWith tokenizer text

end ConfTree.Xml
