import ConfTree.Proofs.Tree.WellFormed

/-!
# Shapes

The shape of a section is what a reader of its tree can tell: names, verbatim values, and the order
of attributes and of child sections, at every level, but not where the nodes stand in an arena. In a
well-formed configuration the shape of a section is built from those of its entries (`shape_eq`),
and it depends on nothing but what lies below the section (`shape_congr`).
-/

namespace ConfTree

/-- A section with all below it, as it is seen. -/
inductive Shape where
  | mk (name : String) (value : Option String) (attributes : List (String × Option String))
    (children : List Shape)

namespace Shape

def name : Shape → String
  | mk name _ _ _ => name

def value : Shape → Option String
  | mk _ value _ _ => value

def attributes : Shape → List (String × Option String)
  | mk _ _ attributes _ => attributes

def children : Shape → List Shape
  | mk _ _ _ children => children

variable {P : Shape → Prop}

mutual

/-- What holds of a shape if it holds of its child sections holds of every shape. -/
@[elab_as_elim]
lemma ind (mk : ∀ name value attributes children, (∀ c ∈ children, P c) →
    P (.mk name value attributes children)) : ∀ s : Shape, P s
  | .mk name value attributes children => mk name value attributes children (ind_all mk children)

/-- What holds of a shape if it holds of its child sections holds of all shapes of a list. -/
lemma ind_all (mk : ∀ name value attributes children, (∀ c ∈ children, P c) →
    P (.mk name value attributes children)) : ∀ cs : List Shape, ∀ c ∈ cs, P c
  | [], _, hc => by cases hc
  | s :: cs, c, hc => by
    rcases List.mem_cons.1 hc with h | h
    · rw [h]
      exact ind mk s
    · exact ind_all mk cs c h

end

/-- The shape with more attributes and more child sections behind those that it has. -/
def extend (s : Shape) (attributes : List (String × Option String)) (children : List Shape) :
    Shape :=
  .mk s.name s.value (s.attributes ++ attributes) (s.children ++ children)

/-- To extend a section twice is to extend it once. -/
@[simp]
lemma extend_extend (s : Shape) (as bs : List (String × Option String)) (xs ys : List Shape) :
    (s.extend as xs).extend bs ys = s.extend (as ++ bs) (xs ++ ys) := by
  simp [extend, name, value, attributes, children]

/-- To extend a section by nothing is to leave it. -/
@[simp]
lemma extend_nil (s : Shape) : s.extend [] [] = s := by
  cases s
  simp [extend, name, value, attributes, children]

end Shape

/-! ## The sections of a shape -/

namespace Shape

mutual

/-- The section and all sections below it. -/
def sections : Shape → List Shape
  | .mk name value attributes children => .mk name value attributes children :: sectionsOf children

/-- The sections of a list and all sections below them. -/
def sectionsOf : List Shape → List Shape
  | [] => []
  | s :: ss => s.sections ++ sectionsOf ss

end

/-- All sections below the section. -/
def descendants (s : Shape) : List Shape := sectionsOf s.children

/-- The sections of a list are those of its members. -/
lemma mem_sectionsOf {t : Shape} {cs : List Shape} :
    t ∈ sectionsOf cs ↔ ∃ c ∈ cs, t ∈ c.sections := by
  induction cs with
  | nil => simp [sectionsOf]
  | cons c cs ih => simp [sectionsOf, ih]

/-- A section is one of its own sections. -/
lemma mem_sections_self (s : Shape) : s ∈ s.sections := by
  cases s
  exact List.mem_cons_self

/-- The sections below a section are among its sections. -/
lemma mem_sections_of_mem_descendants {s t : Shape} (h : t ∈ s.descendants) : t ∈ s.sections := by
  cases s
  exact List.mem_cons_of_mem _ h

/-- The sections of a section are itself and those below it. -/
lemma length_sections (s : Shape) : s.sections.length = s.descendants.length + 1 := by
  cases s
  rfl

/-- The sections of a child section are among those of its parent. -/
lemma mem_sections_of_child {s t u : Shape} (hu : u ∈ s.children) (h : t ∈ u.sections) :
    t ∈ s.sections :=
  mem_sections_of_mem_descendants (mem_sectionsOf.2 ⟨u, hu, h⟩)

/-- A child section of one of the sections lies below the section. -/
lemma mem_descendants_of_child {s t u : Shape} (h : t ∈ s.sections) (hu : u ∈ t.children) :
    u ∈ s.descendants := by
  induction s using Shape.ind with
  | mk name value attributes children ih =>
    rcases List.mem_cons.1 h with rfl | h
    · exact mem_sectionsOf.2 ⟨u, hu, mem_sections_self u⟩
    · obtain ⟨c, hc, ht⟩ := mem_sectionsOf.1 h
      exact mem_sectionsOf.2 ⟨c, hc, mem_sections_of_mem_descendants (ih c hc ht)⟩

/-- The sections of a list of trees are those of its parts. -/
lemma sectionsOf_append (xs ys : List Shape) :
    sectionsOf (xs ++ ys) = sectionsOf xs ++ sectionsOf ys := by
  induction xs with
  | nil => rfl
  | cons x xs ih => rw [List.cons_append, sectionsOf, ih, sectionsOf, List.append_assoc]

mutual

/-- The number of levels below the section. -/
def height : Shape → Nat
  | .mk _ _ _ children => heights children

/-- The number of levels of the sections of a list. -/
def heights : List Shape → Nat
  | [] => 0
  | s :: ss => max (s.height + 1) (heights ss)

end

/-- The higher part counts. -/
lemma heights_append (xs ys : List Shape) : heights (xs ++ ys) = max (heights xs) (heights ys) := by
  induction xs with
  | nil => simp [heights]
  | cons x xs ih => rw [List.cons_append, heights, ih, heights, max_assoc]

/-- None of the trees is as high as all of them with their parent. -/
lemma height_lt_heights {s : Shape} {ss : List Shape} (h : s ∈ ss) : s.height < heights ss := by
  induction ss with
  | nil => cases h
  | cons x ss ih =>
    rw [heights]
    rcases List.mem_cons.1 h with rfl | h
    · omega
    · have := ih h
      omega

/-- A child section is less high than its parent. -/
lemma height_lt_of_child {s t : Shape} (h : t ∈ s.children) : t.height < s.height := by
  cases s
  exact height_lt_heights h

/-- All attributes of all sections have the property. -/
def AllAttributes (P : String × Option String → Prop) (s : Shape) : Prop :=
  ∀ t ∈ s.sections, ∀ a ∈ t.attributes, P a

instance (P : String × Option String → Prop) [DecidablePred P] (s : Shape) :
    Decidable (s.AllAttributes P) := by
  unfold AllAttributes
  infer_instance

/-- The attributes of a section are its own and those of its child sections. -/
lemma allAttributes_iff {P : String × Option String → Prop} {s : Shape} :
    s.AllAttributes P ↔ (∀ a ∈ s.attributes, P a) ∧ ∀ c ∈ s.children, c.AllAttributes P := by
  obtain ⟨name, value, attributes, children⟩ := s
  constructor
  · intro h
    refine ⟨h _ List.mem_cons_self, fun c hc t ht => h t (List.mem_cons_of_mem _ ?_)⟩
    exact mem_sectionsOf.2 ⟨c, hc, ht⟩
  · rintro ⟨own, rest⟩ t ht
    rcases List.mem_cons.1 ht with rfl | ht
    · exact own
    · obtain ⟨c, hc, ht⟩ := mem_sectionsOf.1 ht
      exact rest c hc t ht

/-- What all attributes of a section meet is met below it, too. -/
lemma AllAttributes.child {P : String × Option String → Prop} {s c : Shape} (h : s.AllAttributes P)
    (hc : c ∈ s.children) : c.AllAttributes P := (allAttributes_iff.1 h).2 c hc

end Shape

/-! ## Shapes of subtrees -/

/-- An attribute as it is seen. -/
def Attribute.pair (a : Attribute) : String × Option String := (a.name, a.value)

namespace Subtree

mutual

/-- The shape of a subtree. -/
def shape : Subtree → Shape
  | .mk _ name value attributes children =>
    .mk name value (attributes.map Attribute.pair) (shapes children)

/-- The shapes of subtrees. -/
def shapes : List Subtree → List Shape
  | [] => []
  | t :: ts => t.shape :: shapes ts

end

/-- The shape of a tree has its name. -/
lemma name_shape (t : Subtree) : t.shape.name = t.name := by
  cases t
  rfl

/-- Trees have their shapes one by one. -/
lemma shapes_eq_map (ts : List Subtree) : shapes ts = ts.map shape := by
  induction ts with
  | nil => rfl
  | cons t ts ih => rw [shapes, ih, List.map_cons]

/-- The shape of a tree has the pairs of its attributes. -/
lemma attributes_shape (t : Subtree) : t.shape.attributes = t.attributes.map Attribute.pair := by
  cases t
  rfl

/-- The shape of a tree has the shapes of its child trees. -/
lemma children_shape (t : Subtree) : t.shape.children = t.children.map shape := by
  cases t
  exact shapes_eq_map _

/-- The shape of a child tree is one of those of the tree. -/
lemma shape_mem_children {t c : Subtree} (h : c ∈ t.children) : c.shape ∈ t.shape.children := by
  rw [children_shape]
  exact List.mem_map_of_mem h

end Subtree

namespace Configuration

variable {conf conf' : Configuration} {id : Nat} {d : NodeData}

/-- An attribute of the arena as it is seen. -/
def pairOf (conf : Configuration) (id : NodeId) : String × Option String :=
  (conf.nameOf id, conf.verbatim? id)

/-- The shape of a section of the arena. -/
def shape (conf : Configuration) (id : NodeId) : Shape := (conf.subtree id).shape

/-- What is seen of a node itself. -/
def view (conf : Configuration) (id : NodeId) : Option (String × Option String × Content) :=
  (conf.live? id).map fun d => (d.name, d.value, d.content)

/-- The name and the value of a live node. -/
lemma pairOf_eq (h : conf.live? id = some d) : conf.pairOf id = (d.name, d.value) := by
  simp [pairOf, nameOf, verbatim?, h]

/-- Nodes of one view look the same and have the same entries. -/
lemma of_view_eq (h : conf'.view id = conf.view id) :
    conf'.nameOf id = conf.nameOf id ∧ conf'.verbatim? id = conf.verbatim? id ∧
      conf'.attributesOf id = conf.attributesOf id ∧ conf'.childrenOf id = conf.childrenOf id := by
  unfold view at h
  cases hc : conf.live? id with
  | none =>
    rw [hc, Option.map_none, Option.map_eq_none_iff] at h
    simp [nameOf, verbatim?, attributesOf, childrenOf, hc, h]
  | some d =>
    rw [hc, Option.map_some, Option.map_eq_some_iff] at h
    obtain ⟨⟨_, _, _, _, _, _⟩, hc', same⟩ := h
    obtain ⟨rfl, same⟩ := Prod.mk.inj same
    obtain ⟨rfl, rfl⟩ := Prod.mk.inj same
    simp [nameOf, verbatim?, attributesOf, childrenOf, hc, hc', NodeData.attributes,
      NodeData.children]

/-- A node that looks the same has the same name and value. -/
lemma pairOf_congr (h : conf'.view id = conf.view id) : conf'.pairOf id = conf.pairOf id := by
  obtain ⟨name, value, -⟩ := of_view_eq h
  rw [pairOf, pairOf, name, value]

/-- What is taken out of the arena depends on what lies below the node only, and not on the depth if
the depth allows for the rest of the arena. -/
lemma subtreeWithin_congr (wf : conf.WellFormed) {n m : Nat} (h : conf.live? id = some d)
    (hn : conf.nodes.size ≤ n + id) (hm : conf.nodes.size ≤ m + id)
    (same : ∀ x, conf.Below id x → conf'.view x = conf.view x) :
    conf'.subtreeWithin m id = conf.subtreeWithin n id := by
  -- Both depths go down together, and neither runs out before the subtree does.
  induction n generalizing m id d with
  | zero =>
    have := lt_size_of_live h
    omega
  | succ n ih =>
    cases m with
    | zero =>
      have := lt_size_of_live h
      omega
    | succ m =>
      obtain ⟨name, value, attributes, children⟩ := of_view_eq (same id .self)
      rw [subtreeWithin, subtreeWithin, name, value, attributes, children]
      congr 1
      · refine List.map_congr_left fun c hc => ?_
        rw [attributesOf_eq h] at hc
        obtain ⟨name, value, -⟩ := of_view_eq (same c (.of_mem_entries wf h hc))
        rw [attributeView, attributeView, name, value]
      · refine List.map_congr_left fun c hc => ?_
        rw [childrenOf_eq h] at hc
        obtain ⟨e, live, -⟩ := wf.listed id d _ c h hc
        have lt := wf.lt_of_mem_entries h hc
        have below := Below.of_mem_entries wf h hc
        exact ih live (by omega) (by omega) fun x hx => same x (below.trans hx)

/-- The subtree of a live node is built from those of its children. -/
lemma subtree_eq (wf : conf.WellFormed) (h : conf.live? id = some d) :
    conf.subtree id = .mk id d.name d.value
      ((d.entries .attributeKind).map conf.attributeView)
      ((d.entries .sectionKind).map conf.subtree) := by
  have lt := lt_size_of_live h
  obtain ⟨n, hn⟩ : ∃ n, conf.nodes.size = n + 1 := ⟨conf.nodes.size - 1, by omega⟩
  rw [subtree, hn, subtreeWithin, attributesOf_eq h, childrenOf_eq h]
  congr 1
  · simp [nameOf, h]
  · simp [verbatim?, h]
  · refine List.map_congr_left fun c hc => ?_
    obtain ⟨e, live, -⟩ := wf.listed id d _ c h hc
    have lt := wf.lt_of_mem_entries h hc
    exact (subtreeWithin_congr wf live (by omega) (by omega) fun _ _ => rfl)

/-- The shape of a live node is built from those of its entries. -/
lemma shape_eq (wf : conf.WellFormed) (h : conf.live? id = some d) :
    conf.shape id = .mk d.name d.value ((d.entries .attributeKind).map conf.pairOf)
      ((d.entries .sectionKind).map conf.shape) := by
  rw [shape, subtree_eq wf h, Subtree.shape, Subtree.shapes_eq_map, List.map_map, List.map_map]
  rfl

/-- The shape of a live node depends on what lies below it only. -/
lemma shape_congr (wf : conf.WellFormed) (wf' : conf'.WellFormed) (h : conf.live? id = some d)
    (same : ∀ x, conf.Below id x → conf'.view x = conf.view x) :
    conf'.shape id = conf.shape id := by
  -- Neither arena lets the subtree end early.
  have deep : conf'.subtreeWithin conf'.nodes.size id =
      conf'.subtreeWithin (conf.nodes.size + conf'.nodes.size) id := by
    obtain ⟨e, he⟩ : ∃ e, conf'.live? id = some e := by
      have := same id .self
      rw [view, view, h] at this
      cases he : conf'.live? id with
      | none =>
        rw [he] at this
        cases this
      | some e => exact ⟨e, rfl⟩
    exact subtreeWithin_congr wf' he (by omega) (by omega) fun _ _ => rfl
  have equal := subtreeWithin_congr (n := conf.nodes.size)
    (m := conf.nodes.size + conf'.nodes.size) wf h (by omega) (by omega) same
  rw [shape, shape, subtree, subtree, deep, equal]

/-- The entries of a node look the same if all below them does. -/
lemma map_entries_congr (wf : conf.WellFormed) (wf' : conf'.WellFormed) (h : conf.live? id = some d)
    (same : ∀ {k : Kind} {x y : Nat}, x ∈ d.entries k → conf.Below x y →
      conf'.view y = conf.view y) :
    (d.entries .attributeKind).map conf'.pairOf = (d.entries .attributeKind).map conf.pairOf ∧
      (d.entries .sectionKind).map conf'.shape = (d.entries .sectionKind).map conf.shape := by
  constructor
  · exact List.map_congr_left fun x hx => pairOf_congr (same hx .self)
  · refine List.map_congr_left fun x hx => ?_
    obtain ⟨e, live, -⟩ := wf.listed id d _ x h hx
    exact shape_congr wf wf' live fun y hy => same hx hy

/-- A node has the name and the value of its shape. -/
lemma of_shape_eq (wf : conf.WellFormed) (h : conf.live? id = some d) {name : String}
    {value : Option String} {attributes : List (String × Option String)} {children : List Shape}
    (shape : conf.shape id = .mk name value attributes children) :
    d.name = name ∧ d.value = value := by
  rw [shape_eq wf h] at shape
  injection shape with name value
  exact ⟨name, value⟩

/-- The shape of a live node has its name. -/
lemma name_shape (wf : conf.WellFormed) (h : conf.live? id = some d) :
    (conf.shape id).name = d.name := by
  rw [shape_eq wf h]
  rfl

end Configuration

end ConfTree
