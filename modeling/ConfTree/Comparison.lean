import ConfTree.Text.Lowercase
import ConfTree.Tree.Subtree

/-!
# Structural comparison

Two trees have the same structure if they agree up to the ASCII case of names, the difference
between no value and an empty one, and the interleaving of siblings with different names.
-/

namespace ConfTree

/-- The value, if it is not empty. -/
def nonEmpty? (value : Option String) : Option String := value.filter (· != "")

/-- The lower-case form of the first name is not behind that of the second. -/
def nameLe (a b : String) : Bool := decide (Text.lowercase a ≤ Text.lowercase b)

/-- Attributes grouped by their names in lower case. -/
def groupedAttributes (attributes : List Attribute) : List Attribute :=
  attributes.mergeSort fun a b => nameLe a.name b.name

namespace Subtree

mutual

/-- The subtree with the siblings of every section grouped by their names in lower case. -/
def grouped : Subtree → Subtree
  | mk id name value attributes children =>
    mk id name value (groupedAttributes attributes)
      ((groupedAll children).mergeSort fun a b => nameLe a.name b.name)

/-- The subtrees, each grouped. -/
def groupedAll : List Subtree → List Subtree
  | [] => []
  | t :: ts => t.grouped :: groupedAll ts

end

/-- The names and values of attributes agree, one by one. -/
def sameAttributes : List Attribute → List Attribute → Bool
  | [], [] => true
  | a :: as, b :: bs =>
    Text.sameName a.name b.name && nonEmpty? a.value == nonEmpty? b.value && sameAttributes as bs
  | _, _ => false

mutual

/-- The names, the values and the entries of sections agree, in their order. -/
def sameShape : Subtree → Subtree → Bool
  | mk _ name value attributes children, other =>
    Text.sameName name other.name && nonEmpty? value == nonEmpty? other.value
      && sameAttributes attributes other.attributes && sameShapes children other.children

/-- Sections agree, one by one. -/
def sameShapes : List Subtree → List Subtree → Bool
  | [], [] => true
  | t :: ts, u :: us => sameShape t u && sameShapes ts us
  | _, _ => false

end

end Subtree

/-- The nodes have the same structure, or both are absent. -/
def structurallyEqual (a : Configuration) (x : Option NodeId) (b : Configuration)
    (y : Option NodeId) : Bool :=
  match x.bind a.live?, y.bind b.live? with
  | none, none => true
  | some d, some e =>
    let x := x.getD Configuration.root
    let y := y.getD Configuration.root
    if d.isSection && e.isSection then
      (a.subtree x).grouped.sameShape (b.subtree y).grouped
    else
      d.isSection == e.isSection &&
        Subtree.sameAttributes [a.attributeView x] [b.attributeView y]
  | _, _ => false

end ConfTree
