import ConfTree.Json.Reader

/-!
# Configurations as object documents

A document holds one entry, the root section. A root that is a scalar is a section with a value.
-/

namespace ConfTree.Json

/-- How values become values of nodes. -/
def reading : Document.Reading Scalar := ⟨.json, Scalar.text?, valueText?⟩

/-- Fills the root section from the value of the document's entry. -/
def readRoot : Value → Edit Unit
  | .table fields => Document.readFields reading Configuration.root fields
  | .array _ => throw (.unparsable .json .rootNotAnObject)
  | .scalar s => Edit.setValue Configuration.root s.text?

/-- The configuration that a value holds. -/
def configurationOf : Value → Except ConfigError Configuration
  | .table [(name, body)] =>
    match (readRoot body).apply (.withRoot name) with
    | (.ok _, conf) => .ok conf
    | (.error e, _) => .error e
  | .table _ => .error (.unparsable .json .notOneEntry)
  | _ => .error (.unparsable .json .notAnObject)

/-- Reads a document. -/
def read (text : String) : Except ConfigError Configuration :=
  match Value.read text.toList with
  | none => .error (.unparsable .json .malformed)
  | some value => configurationOf value

/-- The scalar of a value of a node. -/
def scalarOf : Option String → Scalar
  | none => .null
  | some s => .text s

/-- The value of a section. -/
def sectionValue (t : Subtree) : Value := .table (Document.sectionFields scalarOf t)

/-- A document whose root is the given section. -/
def write (t : Subtree) : String := String.ofList (pretty 0 (.table [(t.name, sectionValue t)]))

end ConfTree.Json
