/-!
# Quotes around a text

A text may stand between two quotes of one kind, which are not part of it.
-/

namespace ConfTree.Text

/-- The text without a pair of equal quotes around it. -/
def unquote (cs : List Char) : List Char :=
  match cs with
  | q :: c :: r =>
    if (q = '\'' || q = '"') && (c :: r).getLast? = some q then (c :: r).dropLast else cs
  | _ => cs

end ConfTree.Text
