import ConfTree.Text.Blank
import ConfTree.Text.Folding

/-!
# Merge policies

A section declares by an attribute how much of it a merge may change.
-/

namespace ConfTree

/-- A merge policy. -/
inductive Policy where
  /-- The value, the attributes and the sections are merged. -/
  | all
  /-- The value and the attributes are merged. -/
  | attributes
  /-- The sections are merged. -/
  | sections
  /-- The section is replaced. -/
  | replace
  /-- The section stays as it is. -/
  | stop
  /-- To merge into the section is an error. -/
  | fail
  deriving DecidableEq, Repr

/-- The name of a policy. -/
def Policy.name : Policy → String
  | .all => "all"
  | .attributes => "attributes"
  | .sections => "sections"
  | .replace => "replace"
  | .stop => "stop"
  | .fail => "fail"

/-- The policy that a text names, in any ASCII case and with blanks around it. A blank text asks for
all. -/
def Policy.ofText? (text : String) : Option Policy :=
  let word := Text.fold (Text.trim text)
  if word = "" || word = "all" then some .all
  else if word = "attributes" then some .attributes
  else if word = "sections" then some .sections
  else if word = "replace" then some .replace
  else if word = "stop" then some .stop
  else if word = "fail" then some .fail
  else none

end ConfTree
