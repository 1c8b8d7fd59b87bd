import ConfTree.Toml.Reader
import ConfTree.Toml.Writer

/-!
# Configurations as table documents

The document is the root section. It has no name, so the root is given the default one.
-/

namespace ConfTree.Toml

/-- How values become values of nodes. -/
def reading : Document.Reading Scalar :=
  ⟨.toml, fun s => some s.toText, fun value => some (valueText value)⟩

/-- Reads a document. -/
def read (text : String) : Except ConfigError Configuration :=
  match readTable text.toList with
  | none => .error (.unparsable .toml .malformed)
  | some fields =>
    match (Document.readFields reading Configuration.root fields).apply .empty with
    | (.ok _, conf) => .ok conf
    | (.error e, _) => .error e

/-- The scalar of a value of a node. No value is written like an empty one. -/
def scalarOf (value : Option String) : Scalar := .text (value.getD "")

/-- A document whose root is the given section. -/
def write (t : Subtree) : String :=
  String.ofList (documentChars (Document.sectionFields scalarOf t))

end ConfTree.Toml
