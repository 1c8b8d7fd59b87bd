import ConfTree.Document.Text
import ConfTree.Layer.Variables

/-!
# Layers

A configuration is built of layers: files, variables of the process, and configurations that are
there already.
-/

namespace ConfTree

/-- What is found at a file path. -/
inductive FileContent where
  | missing
  /-- Something that is no text, or cannot be read at all. -/
  | unreadable
  | text (s : String)
  deriving DecidableEq, Repr

/-- The content of a file of bytes. -/
def FileContent.ofBytes (bytes : ByteArray) : FileContent :=
  match String.fromUTF8? bytes with
  | some s => .text s
  | none => .unreadable

/-- A layer. -/
inductive Layer where
  /-- A file. Its format is given or told by its path, and one that is not required may be
  missing. -/
  | file (path : String) (required : Bool) (format : Option Format) (content : FileContent)
  /-- The variables of the process whose names start with `start` and the separator. -/
  | environment (start separator : String)
  | tree (conf : Configuration)

namespace Layer

/-- The configuration in a file, if there is one. -/
def loadFile (path : String) (required : Bool) (format : Option Format) (content : FileContent) :
    Except ConfigError (Option Configuration) :=
  match format.or (Format.ofPath? path) with
  | none => .error (.unknownFormat path)
  | some format =>
    match content with
    | .missing => if required then .error (.fileNotFound path) else .ok none
    | .unreadable => .error (.unreadable path)
    | .text s => (format.read s).map some

/-- The configuration of a layer, if it has one. -/
def load (process : Host) : Layer → Except ConfigError (Option Configuration)
  | file path required format content => loadFile path required format content
  | environment start separator => (ofVariables start separator process.vars).map some
  | tree conf => .ok (some conf)

end Layer

end ConfTree
