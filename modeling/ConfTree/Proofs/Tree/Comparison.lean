import ConfTree.Comparison
import ConfTree.Proofs.Tree.Shape

/-!
# Structural equality of shapes

The comparison of two sections sees nothing of them but their shapes, and of these not whether a
value is absent or empty. Sections whose shapes have one normal form are structurally equal
(`structurallyEqual_of_normal`): the entries of both are grouped in the same way, since to group
them looks at names only (`normal_grouped`).
-/

namespace ConfTree

namespace Shape

/-- An attribute with a value. -/
def normalPair (a : String × Option String) : String × Option String := (a.1, some (a.2.getD ""))

mutual

/-- The shape with no empty value of a section, and with a value of every attribute. -/
def normal : Shape → Shape
  | .mk name value attributes children =>
    .mk name (nonEmpty? value) (attributes.map normalPair) (normals children)

/-- The shapes, each in its normal form. -/
def normals : List Shape → List Shape
  | [] => []
  | s :: ss => s.normal :: normals ss

end

/-- Shapes have normal forms one by one. -/
lemma normals_eq_map (ss : List Shape) : normals ss = ss.map normal := by
  induction ss with
  | nil => rfl
  | cons s ss ih => rw [normals, ih, List.map_cons]

/-- To drop an empty text twice is to drop it once. -/
lemma nonEmpty?_nonEmpty? (value : Option String) :
    nonEmpty? (nonEmpty? value) = nonEmpty? value := by
  simp [nonEmpty?, Option.filter_filter]

mutual

/-- A normal form is its own. -/
lemma normal_normal : ∀ s : Shape, s.normal.normal = s.normal
  | .mk name value attributes children => by
    simp only [normal, nonEmpty?_nonEmpty?, List.map_map, normals_normals]
    rfl

/-- A normal form is its own. -/
lemma normals_normals : ∀ ss : List Shape, normals (normals ss) = normals ss
  | [] => rfl
  | s :: ss => by rw [normals, normals, normal_normal s, normals_normals ss]

end

end Shape

/-- No value and an empty one are not told apart. -/
lemma nonEmpty?_congr {a b : Option String} (h : a.getD "" = b.getD "") :
    nonEmpty? a = nonEmpty? b := by
  cases a <;> cases b <;> simp_all [nonEmpty?, Option.filter]

namespace Subtree

/-- The names and values of the shape of an attribute, as a comparison sees them. -/
lemma sameAttributes_of_normal {as bs : List Attribute}
    (h : (as.map Attribute.pair).map Shape.normalPair =
      (bs.map Attribute.pair).map Shape.normalPair) :
    sameAttributes as bs = true := by
  induction as generalizing bs with
  | nil =>
    cases bs with
    | nil => rfl
    | cons b bs => cases h
  | cons a as ih =>
    cases bs with
    | nil => cases h
    | cons b bs =>
      obtain ⟨first, rest⟩ := List.cons.inj h
      obtain ⟨name, value⟩ := Prod.mk.inj first
      have value : nonEmpty? a.value = nonEmpty? b.value := nonEmpty?_congr (Option.some.inj value)
      have name : a.name = b.name := name
      simp [sameAttributes, name, value, Text.sameName, ih rest]

mutual

/-- Sections that have one normal form agree. -/
lemma sameShape_of_normal : ∀ {t u : Subtree}, t.shape.normal = u.shape.normal →
    t.sameShape u = true
  | .mk _ name value attributes children, .mk _ name' value' attributes' children', h => by
    obtain ⟨rfl, value, attributes, children⟩ := Shape.mk.inj h
    have attributes := sameAttributes_of_normal attributes
    have children := sameShapes_of_normal children
    simp [sameShape, Subtree.name, Subtree.value, Subtree.attributes, Subtree.children,
      Text.sameName, value, attributes, children]

/-- Trees with the same normal forms are compared as equal. -/
lemma sameShapes_of_normal : ∀ {ts us : List Subtree},
    Shape.normals (shapes ts) = Shape.normals (shapes us) → sameShapes ts us = true
  | [], [], _ => rfl
  | [], _ :: _, h => by cases h
  | _ :: _, [], h => by cases h
  | t :: ts, u :: us, h => by
    obtain ⟨first, rest⟩ := List.cons.inj h
    rw [sameShapes, sameShape_of_normal first, sameShapes_of_normal rest, Bool.and_self]

end

/-- Attributes are grouped by what is seen of them. -/
lemma normalPairs_grouped (as : List Attribute) :
    ((groupedAttributes as).map Attribute.pair).map Shape.normalPair =
      ((as.map Attribute.pair).map Shape.normalPair).mergeSort fun a b => nameLe a.1 b.1 := by
  rw [List.map_map, List.map_map, groupedAttributes]
  exact List.map_mergeSort fun a _ b _ => rfl

/-- Sections are grouped by what is seen of them. -/
lemma normals_mergeSort (ts : List Subtree) :
    Shape.normals (shapes (ts.mergeSort fun a b => nameLe a.name b.name)) =
      (Shape.normals (shapes ts)).mergeSort fun a b => nameLe a.name b.name := by
  rw [shapes_eq_map, shapes_eq_map, Shape.normals_eq_map, Shape.normals_eq_map, List.map_map,
    List.map_map]
  refine List.map_mergeSort fun a _ b _ => ?_
  obtain ⟨_, name, _, _, _⟩ := a
  obtain ⟨_, name', _, _, _⟩ := b
  rfl

mutual

/-- Sections that have one normal form have one when they are grouped. -/
lemma normal_grouped : ∀ {t u : Subtree}, t.shape.normal = u.shape.normal →
    t.grouped.shape.normal = u.grouped.shape.normal
  | .mk _ name value attributes children, .mk _ name' value' attributes' children', h => by
    obtain ⟨rfl, value, attributes, children⟩ := Shape.mk.inj h
    have children := normals_grouped children
    rw [grouped, grouped, shape, shape, Shape.normal, Shape.normal, value, normalPairs_grouped,
      normalPairs_grouped, attributes, normals_mergeSort, normals_mergeSort, children]

/-- Grouping keeps which normal forms are the same. -/
lemma normals_grouped : ∀ {ts us : List Subtree},
    Shape.normals (shapes ts) = Shape.normals (shapes us) →
      Shape.normals (shapes (groupedAll ts)) = Shape.normals (shapes (groupedAll us))
  | [], [], _ => rfl
  | [], _ :: _, h => by cases h
  | _ :: _, [], h => by cases h
  | t :: ts, u :: us, h => by
    obtain ⟨first, rest⟩ := List.cons.inj h
    exact congrArg₂ List.cons (normal_grouped first) (normals_grouped rest)

end

end Subtree

variable {conf conf' : Configuration} {x y : NodeId} {d e : NodeData}

/-- Sections whose shapes have one normal form are structurally equal. -/
lemma structurallyEqual_of_normal (hx : conf.live? x = some d) (hy : conf'.live? y = some e)
    (sec : d.isSection = true) (sec' : e.isSection = true)
    (h : (conf.shape x).normal = (conf'.shape y).normal) :
    structurallyEqual conf (some x) conf' (some y) = true := by
  have same := Subtree.sameShape_of_normal (Subtree.normal_grouped h)
  simp [structurallyEqual, hx, hy, sec, sec', same]

end ConfTree
