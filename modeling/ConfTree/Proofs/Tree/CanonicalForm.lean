import ConfTree.Proofs.Tree.Regrouping

/-!
# Canonical forms

The canonical form of a section has every name folded and every empty value dropped, and its entries
are sorted by their names in lower case, at every level. Two nodes are structurally equal exactly
when they are of one kind and have one canonical form (`structurallyEqual_iff`): to group a subtree
and to fold it is to take the canonical form of its shape (`folded_grouped`), and grouped subtrees
agree when they are equal after folding (`sameShape_iff`).
-/

namespace ConfTree

open ConfTree.Text

namespace Shape

/-- An attribute under its folded name, with no empty value. -/
def foldedPair (a : String × Option String) : String × Option String := (fold a.1, nonEmpty? a.2)

mutual

/-- The shape with folded names and no empty values. -/
def folded : Shape → Shape
  | .mk name value attributes children =>
    .mk (fold name) (nonEmpty? value) (attributes.map foldedPair) (foldeds children)

/-- The shapes, each of them folded. -/
def foldeds : List Shape → List Shape
  | [] => []
  | s :: ss => s.folded :: foldeds ss

end

mutual

/-- The shape, folded, and with the entries of every section sorted by their names. -/
def canonical : Shape → Shape
  | .mk name value attributes children =>
    .mk (fold name) (nonEmpty? value)
      ((attributes.map foldedPair).mergeSort fun a b => nameLe a.1 b.1)
      ((canonicals children).mergeSort fun a b => nameLe a.name b.name)

/-- The canonical forms of shapes. -/
def canonicals : List Shape → List Shape
  | [] => []
  | s :: ss => s.canonical :: canonicals ss

end

/-- Shapes are folded one by one. -/
lemma foldeds_eq_map (ss : List Shape) : foldeds ss = ss.map folded := by
  induction ss with
  | nil => rfl
  | cons s ss ih => rw [foldeds, ih, List.map_cons]

/-- Shapes have canonical forms one by one. -/
lemma canonicals_eq_map (ss : List Shape) : canonicals ss = ss.map canonical := by
  induction ss with
  | nil => rfl
  | cons s ss ih => rw [canonicals, ih, List.map_cons]

/-- In the canonical form the name is folded. -/
lemma name_canonical (s : Shape) : s.canonical.name = fold s.name := by
  cases s
  rfl

/-- Folded names are in the order of the names. -/
lemma nameLe_fold (a b : String) : nameLe (fold a) (fold b) = nameLe a b := by
  rw [nameLe, nameLe, lowercase_fold, lowercase_fold]

end Shape

/-! ## Subtrees -/

namespace Subtree

/-- Attributes agree one by one when they are equal after folding. -/
lemma sameAttributes_iff {as bs : List Attribute} : sameAttributes as bs = true ↔
    (as.map Attribute.pair).map Shape.foldedPair =
      (bs.map Attribute.pair).map Shape.foldedPair := by
  induction as generalizing bs with
  | nil => cases bs <;> simp [sameAttributes]
  | cons a as ih =>
    cases bs with
    | nil => simp [sameAttributes]
    | cons b bs =>
      simp only [sameAttributes, Bool.and_eq_true, beq_iff_eq, ih, List.map_cons, List.cons.injEq,
        Shape.foldedPair, Attribute.pair, Prod.mk.injEq, fold_eq_iff]

mutual

/-- Sections agree when they are equal after folding. -/
lemma sameShape_iff : ∀ {t u : Subtree}, t.sameShape u = true ↔ t.shape.folded = u.shape.folded
  | .mk _ name value attributes children, .mk _ name' value' attributes' children' => by
    simp only [sameShape, Bool.and_eq_true, beq_iff_eq, Subtree.name, Subtree.value,
      Subtree.attributes, Subtree.children, sameAttributes_iff, sameShapes_iff, shape,
      Shape.folded, Shape.mk.injEq, fold_eq_iff, and_assoc]

/-- Trees are compared as equal exactly if their folded shapes are the same. -/
lemma sameShapes_iff : ∀ {ts us : List Subtree}, sameShapes ts us = true ↔
    Shape.foldeds (shapes ts) = Shape.foldeds (shapes us)
  | [], [] => by simp [sameShapes]
  | [], _ :: _ => by simp [sameShapes, shapes, Shape.foldeds]
  | _ :: _, [] => by simp [sameShapes, shapes, Shape.foldeds]
  | t :: ts, u :: us => by
    simp only [sameShapes, Bool.and_eq_true, sameShape_iff, sameShapes_iff, shapes, Shape.foldeds,
      List.cons.injEq]

end

/-- Attributes are grouped by what is left of their names after folding. -/
lemma foldedPairs_grouped (as : List Attribute) :
    ((groupedAttributes as).map Attribute.pair).map Shape.foldedPair =
      ((as.map Attribute.pair).map Shape.foldedPair).mergeSort fun a b => nameLe a.1 b.1 := by
  rw [List.map_map, List.map_map, groupedAttributes]
  exact List.map_mergeSort fun a _ b _ => (Shape.nameLe_fold a.name b.name).symm

/-- Sections are grouped by what is left of their names after folding. -/
lemma foldeds_mergeSort (ts : List Subtree) :
    Shape.foldeds (shapes (ts.mergeSort fun a b => nameLe a.name b.name)) =
      (Shape.foldeds (shapes ts)).mergeSort fun a b => nameLe a.name b.name := by
  rw [shapes_eq_map, shapes_eq_map, Shape.foldeds_eq_map, Shape.foldeds_eq_map, List.map_map,
    List.map_map]
  refine List.map_mergeSort fun a _ b _ => ?_
  obtain ⟨_, name, _, _, _⟩ := a
  obtain ⟨_, name', _, _, _⟩ := b
  exact (Shape.nameLe_fold name name').symm

mutual

/-- To group a section and to fold it is to take the canonical form of its shape. -/
lemma folded_grouped : ∀ t : Subtree, t.grouped.shape.folded = t.shape.canonical
  | .mk _ name value attributes children => by
    rw [grouped, shape, Shape.folded, foldedPairs_grouped, foldeds_mergeSort,
      foldeds_groupedAll children, shape, Shape.canonical]

/-- Grouped trees, folded, are the canonical forms. -/
lemma foldeds_groupedAll : ∀ ts : List Subtree,
    Shape.foldeds (shapes (groupedAll ts)) = Shape.canonicals (shapes ts)
  | [] => rfl
  | t :: ts => by
    rw [groupedAll, shapes, Shape.foldeds, folded_grouped t, foldeds_groupedAll ts, shapes,
      Shape.canonicals]

end

end Subtree

/-! ## Nodes -/

namespace Configuration

/-- The kind and the canonical form of a node. -/
def canonical? (conf : Configuration) (id : NodeId) : Option (Kind × Shape) :=
  (conf.live? id).map fun d => (d.kind, (conf.shape id).canonical)

/-- An attribute has no entries. -/
lemma shape_attribute {conf : Configuration} {id : NodeId} {d : NodeData}
    (h : conf.live? id = some d) (leaf : d.kind = .attributeKind) :
    conf.shape id = .mk d.name d.value [] [] := by
  have name : conf.nameOf id = d.name := by simp [nameOf, h]
  have value : conf.verbatim? id = d.value := by simp [verbatim?, h]
  have attributes : conf.attributesOf id = [] := by
    rw [attributesOf_eq h, NodeData.entries_of_attribute leaf]
  have children : conf.childrenOf id = [] := by
    rw [childrenOf_eq h, NodeData.entries_of_attribute leaf]
  rw [shape, subtree]
  cases conf.nodes.size with
  | zero => rw [subtreeWithin, name, value]; rfl
  | succ n => rw [subtreeWithin, name, value, attributes, children]; rfl

end Configuration

open ConfTree.Configuration

variable {a b : Configuration} {x y : NodeId} {d e : NodeData}

/-- Live nodes are structurally equal when they are of one kind and have one canonical form. -/
lemma structurallyEqual_live_iff (hx : a.live? x = some d) (hy : b.live? y = some e) :
    structurallyEqual a (some x) b (some y) = true ↔
      d.kind = e.kind ∧ (a.shape x).canonical = (b.shape y).canonical := by
  simp only [structurallyEqual, Option.bind_some, hx, hy, Option.getD_some]
  cases hd : d.isSection <;> cases he : e.isSection
  case true.true =>
    have kinds : d.kind = e.kind :=
      (NodeData.kind_eq_sectionKind.2 hd).trans (NodeData.kind_eq_sectionKind.2 he).symm
    simp only [Bool.and_self, if_true, Subtree.sameShape_iff, Subtree.folded_grouped]
    exact ⟨fun same => ⟨kinds, same⟩, And.right⟩
  case false.false =>
    have leaf := NodeData.kind_eq_attributeKind.2 hd
    have leaf' := NodeData.kind_eq_attributeKind.2 he
    simp [Subtree.sameAttributes_iff, leaf, leaf', shape_attribute hx leaf,
      shape_attribute hy leaf', attributeView, Attribute.pair, nameOf, verbatim?, hx, hy,
      Shape.canonical, Shape.foldedPair, Shape.canonicals]
  all_goals simp [NodeData.kind, hd, he]

/-- Nodes are structurally equal when both are absent, or both are there, of one kind, and with one
canonical form. -/
lemma structurallyEqual_iff {x y : Option NodeId} :
    structurallyEqual a x b y = true ↔ x.bind a.canonical? = y.bind b.canonical? := by
  have absent : ∀ {conf : Configuration} {z : Option NodeId}, z.bind conf.live? = none →
      z.bind conf.canonical? = none := by
    intro conf z h
    cases z with
    | none => rfl
    | some z => simpa [canonical?] using h
  cases hx : x.bind a.live? with
  | none =>
    rw [absent hx]
    cases hy : y.bind b.live? with
    | none => simp [structurallyEqual, hx, hy, absent hy]
    | some e =>
      obtain ⟨y, rfl, live⟩ := Option.bind_eq_some_iff.1 hy
      simp [structurallyEqual, hx, live, canonical?]
  | some d =>
    obtain ⟨x, rfl, live⟩ := Option.bind_eq_some_iff.1 hx
    cases hy : y.bind b.live? with
    | none => simp [structurallyEqual, live, hy, absent hy, canonical?]
    | some e =>
      obtain ⟨y, rfl, live'⟩ := Option.bind_eq_some_iff.1 hy
      simp [structurallyEqual_live_iff live live', canonical?, live, live']

/-- The nodes of two configurations are structurally equal. -/
def Alike (a b : Configuration) (x y : NodeId) : Prop :=
  structurallyEqual a (some x) b (some y) = true

instance : Decidable (Alike a b x y) := inferInstanceAs (Decidable (_ = true))

/-- Nodes are alike exactly if they have the same canonical form or do not exist. -/
lemma alike_iff : Alike a b x y ↔ a.canonical? x = b.canonical? y := structurallyEqual_iff

/-- What is structurally equal to a live node is live, of its kind, and of its canonical form. -/
lemma Alike.live (h : Alike a b x y) (hx : a.live? x = some d) :
    ∃ e, b.live? y = some e ∧ d.kind = e.kind ∧ (a.shape x).canonical = (b.shape y).canonical := by
  rw [alike_iff, canonical?, canonical?, hx, Option.map_some, eq_comm, Option.map_eq_some_iff] at h
  obtain ⟨e, hy, same⟩ := h
  obtain ⟨kind, form⟩ := Prod.mk.inj same
  exact ⟨e, hy, kind.symm, form.symm⟩

end ConfTree
