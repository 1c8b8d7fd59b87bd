import ConfTree.Brace.Token

/-!
# Faults of documents

Why a text is not a document of its format, or a tree has no document in it. Faults of the common
formats' own grammars are not told apart.
-/

namespace ConfTree.Document

/-- A fault of a document. -/
inductive Fault where
  /-- The text breaks the grammar of its format. -/
  | malformed
  /-- A fault of brace notation, in a line. -/
  | brace (line : Nat) (fault : Brace.Fault)
  | notAnObject
  | notOneEntry
  | rootNotAnObject
  | nestedArray (name : String)
  | textOutsideRoot
  | cdataOutsideRoot
  | unclosedElement
  | secondRoot
  | noRoot
  | duplicateAttribute (name path : String)
  | invalidName (name : String)
  deriving DecidableEq, Repr

/-- The wording of a fault. -/
def Fault.message : Fault → String
  | .malformed => "malformed document"
  | .brace line fault => "line " ++ toString line ++ ": " ++ fault.message
  | .notAnObject => "document must be an object"
  | .notOneEntry => "document must hold exactly one root entry"
  | .rootNotAnObject => "the root must be an object"
  | .nestedArray name => "nested arrays are not supported ('" ++ name ++ "')"
  | .textOutsideRoot => "text outside the root element"
  | .cdataOutsideRoot => "CDATA outside the root element"
  | .unclosedElement => "unclosed element"
  | .secondRoot => "more than one root element"
  | .noRoot => "document has no root element"
  | .duplicateAttribute name path => "duplicate attribute '" ++ name ++ "' on '" ++ path ++ "'"
  | .invalidName name => "'" ++ name ++ "' is not a valid XML name"

end ConfTree.Document
