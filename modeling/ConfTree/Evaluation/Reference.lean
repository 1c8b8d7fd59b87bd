import ConfTree.Text.Blank

/-!
# References

A reference names a node by its path or a variable of the environment, or neither, and may go on
with a macro call after `::`. A `!` in front makes an absent target an error.
-/

namespace ConfTree

/-- What a reference refers to. -/
inductive Target where
  | nothing
  | variableNamed (name : String)
  | node (path : String)
  deriving DecidableEq, Repr

/-- A reference. -/
structure Reference where
  required : Bool
  /-- The target as it is written. -/
  text : String
  target : Target
  call : Option String
  deriving DecidableEq, Repr

/-- Cuts a text at the first double colon. -/
def splitAtCall : List Char → List Char × Option (List Char)
  | ':' :: ':' :: cs => ([], some cs)
  | c :: cs => let (before, call) := splitAtCall cs; (c :: before, call)
  | [] => ([], none)

/-- The target that a trimmed text spells. -/
def Target.read : List Char → Target
  | [] => .nothing
  | '~' :: cs => .variableNamed (String.ofList (Text.trimChars cs))
  | cs => .node (String.ofList cs)

/-- Reads the body of a reference. -/
def Reference.read (body : List Char) : Reference :=
  let (before, call) := splitAtCall body
  let call := call.map String.ofList
  match Text.trimChars before with
  | '!' :: cs =>
    let target := Text.trimChars cs
    ⟨true, String.ofList target, .read target, call⟩
  | target => ⟨false, String.ofList target, .read target, call⟩

end ConfTree
