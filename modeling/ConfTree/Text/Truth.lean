import ConfTree.Text.Blank
import ConfTree.Text.Folding

/-!
# Words for truth values

Truth values are written by words in any ASCII case, with blanks around them.
-/

namespace ConfTree.Text

/-- Reads a word for a truth value. -/
def readTruth (s : String) : Option Bool :=
  let word := fold (trim s)
  if word = "true" || word = "yes" || word = "on" || word = "1" then some true
  else if word = "false" || word = "no" || word = "off" || word = "0" then some false
  else none

/-- The text of a truth value. -/
def truthText (b : Bool) : String := if b then "true" else "false"

end ConfTree.Text
