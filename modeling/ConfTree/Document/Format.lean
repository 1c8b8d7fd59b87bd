import ConfTree.Text.Folding
import ConfTree.Text.Split

/-!
# Formats of documents

A document is written in brace notation or in one of three common formats. The format of a file is
told by the extension of its name.
-/

namespace ConfTree

/-- A format of documents. -/
inductive Format where
  | brace
  | json
  | xml
  | toml
  deriving DecidableEq, Repr

/-- The name of a format in messages. -/
def Format.name : Format → String
  | .brace => "laconic"
  | .json => "json"
  | .xml => "xml"
  | .toml => "toml"

/-- The format with the given name. -/
def Format.ofName? (name : String) : Option Format :=
  [Format.brace, .json, .xml, .toml].find? (·.name == name)

/-- The format with the given extension, in any ASCII case. -/
def Format.ofExtension? (extension : String) : Option Format :=
  let folded := Text.fold extension
  if folded = "laconf" || folded = "lac" || folded = "conf" then some .brace
  else if folded = "json" then some .json
  else if folded = "xml" then some .xml
  else if folded = "toml" then some .toml
  else none

/-- The last name of a file path. Empty parts and single dots name nothing, and two dots name no
file. -/
def fileName? (path : List Char) : Option (List Char) :=
  let parts := (Text.splitAt ['/'] path).filter fun p => !p.isEmpty && p != ['.']
  parts.getLast?.filter (· != ['.', '.'])

/-- What follows the last dot of a file name, if anything precedes that dot. -/
def extension? (name : List Char) : Option (List Char) :=
  let back := name.reverse
  match back.dropWhile (· != '.') with
  | _ :: _ :: _ => some (back.takeWhile (· != '.')).reverse
  | _ => none

/-- The format told by a file path. -/
def Format.ofPath? (path : String) : Option Format := do
  let name ← fileName? path.toList
  let extension ← extension? name
  Format.ofExtension? (String.ofList extension)

end ConfTree
