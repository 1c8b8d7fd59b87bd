import ConfTree.Proofs.Merge.Overlay
import ConfTree.Proofs.Tree.Shape
import ConfTree.Text.Folding

/-!
# Merging shapes

The merge of two shapes is an overlay at every level: of attributes by their names, and of child
sections by their names and the value of their first match attribute. It is associative
(`Shape.merge_assoc`), and shapes without content are its units.
-/

namespace ConfTree

open ConfTree.Text

/-- The attributes have the same name. -/
def sameAttribute (a b : String × Option String) : Bool := sameName a.1 b.1

/-- The first attribute with the value of the second. -/
def takeValue (a b : String × Option String) : String × Option String := (a.1, b.2)

/-- Attributes are classed by their names. -/
lemma classes_attributes : Classes sameAttribute takeValue where
  symm := sameName_symm
  trans := sameName_trans
  keeps := fun _ => sameName_refl _

/-- Attributes laid over themselves stay. -/
lemma overlay_attributes_self (as : List (String × Option String)) :
    overlay sameAttribute takeValue as as = as :=
  overlay_self (fun a => sameName_refl a.1) (fun _ => rfl) as

/-- The first attribute of a name in an overlay is paired up from those in both lists. -/
lemma find?_overlay_attributes {name : String} {as bs : List (String × Option String)} :
    ((overlay sameAttribute takeValue as bs).find? fun a => sameName a.1 name) =
      pairUp takeValue (as.find? fun a => sameName a.1 name)
        (bs.find? fun a => sameName a.1 name) := by
  have same : (fun a : String × Option String => sameName a.1 name) =
      sameAttribute (name, none) := by
    funext a
    exact sameName_comm _ _
  rw [same]
  exact classes_attributes.find?_eraseP_overlay.1

namespace Shape

variable (keyName : String)

/-- The section has a match attribute. -/
def carries (s : Shape) : Bool := s.attributes.any fun a => sameName a.1 keyName

/-- The value of the first match attribute. -/
def key? (s : Shape) : Option String :=
  (s.attributes.find? fun a => sameName a.1 keyName).bind (·.2)

/-- The sections have the same name and the same key. -/
def agrees (s t : Shape) : Bool := sameName s.name t.name && s.key? keyName == t.key? keyName

mutual

/-- The shape of a merge of the second shape into the first. -/
def merge : Shape → Shape → Shape
  | .mk name value attributes children, t =>
    .mk name (t.value.or value) (overlay sameAttribute takeValue attributes t.attributes)
      (mergeAll children t.children)

/-- The shapes of the child sections of a merge. -/
def mergeAll : List Shape → List Shape → List Shape
  | [], ys => ys
  | x :: xs, ys =>
    (ys.find? (agrees keyName x)).elim x (merge x) :: mergeAll xs (ys.eraseP (agrees keyName x))

end

variable {keyName}

/-- Sections are merged as an overlay. -/
lemma mergeAll_eq (xs ys : List Shape) :
    mergeAll keyName xs ys = overlay (agrees keyName) (merge keyName) xs ys := by
  induction xs generalizing ys with
  | nil => rfl
  | cons x xs ih => rw [mergeAll, overlay, ih]

/-- A merged section keeps its name. -/
lemma name_merge (s t : Shape) : (s.merge keyName t).name = s.name := by
  cases s
  rfl

/-- The attributes of a merged section are overlaid. -/
lemma attributes_merge (s t : Shape) : (s.merge keyName t).attributes =
    overlay sameAttribute takeValue s.attributes t.attributes := by
  cases s
  rfl

/-- The match attribute of a merge is paired up from those of both shapes. -/
lemma find?_attributes_merge (s t : Shape) :
    ((s.merge keyName t).attributes.find? fun a => sameName a.1 keyName) =
      pairUp takeValue (s.attributes.find? fun a => sameName a.1 keyName)
        (t.attributes.find? fun a => sameName a.1 keyName) := by
  rw [attributes_merge]
  exact find?_overlay_attributes

/-- A merge of sections with one key has this key. -/
lemma key?_merge {s t : Shape} (h : s.key? keyName = t.key? keyName) :
    (s.merge keyName t).key? keyName = s.key? keyName := by
  rw [key?, find?_attributes_merge]
  rw [key?, key?] at h
  rw [key?]
  cases hs : s.attributes.find? fun a => sameName a.1 keyName with
  | none =>
    rw [hs] at h
    rw [pairUp]
    exact h.symm
  | some a =>
    cases ht : t.attributes.find? fun a => sameName a.1 keyName with
    | none => rfl
    | some b =>
      rw [hs, ht] at h
      exact h.symm

/-- Sections are classed by what they agree on. -/
lemma classes_sections : Classes (agrees keyName) (merge keyName) where
  symm := by
    intro x y h
    simp only [agrees, Bool.and_eq_true, beq_iff_eq] at h ⊢
    exact ⟨sameName_symm h.1, h.2.symm⟩
  trans := by
    intro x y z h k
    simp only [agrees, Bool.and_eq_true, beq_iff_eq] at h k ⊢
    exact ⟨sameName_trans h.1 k.1, h.2.trans k.2⟩
  keeps := by
    intro x y h
    simp only [agrees, Bool.and_eq_true, beq_iff_eq] at h ⊢
    rw [name_merge]
    exact ⟨sameName_refl _, (key?_merge h.2).symm⟩

/-- Merging shapes is associative. -/
lemma merge_assoc (a b c : Shape) :
    (a.merge keyName b).merge keyName c = a.merge keyName (b.merge keyName c) := by
  induction a using Shape.ind generalizing b c with
  | mk name value attributes children ih =>
    obtain ⟨_, value', attributes', children'⟩ := b
    obtain ⟨_, value'', attributes'', children''⟩ := c
    have assoc : overlay _ _ (overlay _ _ children children') children'' = _ :=
      classes_sections.overlay_assoc ih
    simp only [merge, mergeAll_eq, Shape.value, Shape.attributes, Shape.children]
    rw [Option.or_assoc, classes_attributes.overlay_assoc (fun _ _ _ _ => rfl), assoc]

/-- Nothing comes out of a merge of an empty section. -/
lemma merge_empty (s : Shape) (name : String) : s.merge keyName (.mk name none [] []) = s := by
  cases s
  simp only [merge, mergeAll_eq, Shape.value, Shape.attributes, Shape.children, overlay_nil,
    Option.none_or]

/-- A merge into an empty section gives the merged section under the name of the empty one. -/
lemma empty_merge (s : Shape) (name : String) :
    (Shape.mk name none [] []).merge keyName s = .mk name s.value s.attributes s.children := by
  simp only [merge, mergeAll_eq, overlay, Option.or_none]

/-! ## Values and attributes -/

/-- The section with the value and the attributes of another one laid over its own. -/
def lay (s t : Shape) : Shape :=
  .mk s.name (t.value.or s.value) (overlay sameAttribute takeValue s.attributes t.attributes)
    s.children

/-- The section with other child sections. -/
def withChildren (s : Shape) (children : List Shape) : Shape :=
  .mk s.name s.value s.attributes children

/-- A section has its own child sections. -/
lemma withChildren_self {s : Shape} : s.withChildren s.children = s := by
  cases s
  rfl

/-- Child sections do not count for what is laid over a section. -/
lemma lay_withChildren (s t : Shape) (children : List Shape) :
    (s.withChildren children).lay t = (s.lay t).withChildren children := rfl

/-- A section laid over itself stays. -/
lemma lay_self (s : Shape) : s.lay s = s := by
  obtain ⟨name, value, attributes, children⟩ := s
  simp only [lay, Shape.name, Shape.value, Shape.attributes, Shape.children,
    overlay_attributes_self, Option.or_self]

/-- To lay a section over another one twice is to lay it once. -/
lemma lay_lay (s t : Shape) : (s.lay t).lay t = s.lay t := by
  obtain ⟨name, value, attributes, children⟩ := s
  obtain ⟨name', value', attributes', children'⟩ := t
  simp only [lay, Shape.name, Shape.value, Shape.attributes, Shape.children, ← Option.or_assoc,
    Option.or_self]
  rw [classes_attributes.overlay_assoc fun _ _ _ _ => rfl, overlay_attributes_self]

end Shape

end ConfTree
