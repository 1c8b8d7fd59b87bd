import ConfTree.Brace.Reader
import ConfTree.Brace.Writer
import ConfTree.Json.Document
import ConfTree.Toml.Document
import ConfTree.Xml.Reader
import ConfTree.Xml.Writer

/-!
# Configurations as texts

A configuration is read from a document of any format, and a section with all below it is written as
one. What is written are verbatim values.
-/

namespace ConfTree

/-- The configuration in a document, as the reader of the format leaves it. -/
def Format.readModified (format : Format) (text : String) : Except ConfigError Configuration :=
  match format with
  | .brace => Brace.read text
  | .json => Json.read text
  | .xml => Xml.read text
  | .toml => Toml.read text

/-- Reads a document. No node of it counts as modified. -/
def Format.read (format : Format) (text : String) : Except ConfigError Configuration := do
  let conf ← format.readModified text
  return conf.resetModified

/-- Writes the section with the given index as the root of a document. -/
def Format.writeSection (format : Format) (conf : Configuration) (id : NodeId) :
    Except ConfigError String :=
  let source := conf.subtree id
  match format with
  | .brace => .ok (Brace.write source)
  | .json => .ok (Json.write source)
  | .xml =>
    match Xml.write conf.rootPath source with
    | .ok text => .ok text
    | .error fault => .error (.unwritable .xml fault)
  | .toml => .ok (Toml.write source)

/-- Writes a node as the root of a document. Only a section can be the root. -/
def Format.write (format : Format) (conf : Configuration) (node : Option NodeId) :
    Except ConfigError String := do
  let id ← conf.requireSectionOf node
  format.writeSection conf id

end ConfTree
