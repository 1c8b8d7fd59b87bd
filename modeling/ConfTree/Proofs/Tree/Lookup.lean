import ConfTree.Tree.Subtree
import Mathlib.Tactic.Lemma

/-!
# Looking nodes up after a change

The changes of an arena are `modifyNode`, `markDeleted` and a push. Here stands what each of them
leaves at every index, and what the entries of a section are after a change of its content. Both
lists of a section are read through `NodeData.entries`, so that child sections and attributes are
treated alike.
-/

namespace ConfTree

/-- The kind of a node. -/
def NodeData.kind (d : NodeData) : Kind := if d.isSection then .sectionKind else .attributeKind

/-- The list of a node with the entries of a kind. -/
def NodeData.entries (d : NodeData) : Kind → List NodeId
  | .sectionKind => d.children.toList
  | .attributeKind => d.attributes.toList

/-- The node as it is marked when it is deleted. -/
def NodeData.buried (d : NodeData) : NodeData := { d with deleted := true, parent := none }

namespace NodeData

variable {d : NodeData} {k : Kind} {id : NodeId}

/-- The kind of a section. -/
lemma kind_eq_sectionKind : d.kind = .sectionKind ↔ d.isSection = true := by
  unfold kind
  split <;> simp_all

/-- The kind of an attribute. -/
lemma kind_eq_attributeKind : d.kind = .attributeKind ↔ d.isSection = false := by
  unfold kind
  split <;> simp_all

/-- An attribute has no entries. -/
lemma entries_of_attribute (h : d.kind = .attributeKind) (k : Kind) : d.entries k = [] := by
  obtain ⟨_, _, _, content, _, _⟩ := d
  cases content with
  | lists => cases h
  | leaf => cases k <;> rfl

/-- A pushed entry comes last in the list of its kind, and the other list stays. -/
lemma entries_push (h : d.kind = .sectionKind) (k' : Kind) (b : Bool) :
    ({ d with content := d.content.push k id, modified := b } : NodeData).entries k' =
      if k' = k then d.entries k' ++ [id] else d.entries k' := by
  obtain ⟨_, _, _, content, _, _⟩ := d
  cases content with
  | lists =>
    cases k <;> cases k' <;>
      simp [entries, NodeData.children, NodeData.attributes, Content.push]
  | leaf => cases h

/-- An erased entry is in no list. -/
lemma entries_erase (k' : Kind) (b : Bool) :
    ({ d with content := d.content.erase id, modified := b } : NodeData).entries k' =
      (d.entries k').filter (· != id) := by
  obtain ⟨_, _, _, content, _, _⟩ := d
  cases content <;> cases k' <;>
    simp [entries, NodeData.children, NodeData.attributes, Content.erase]

/-- A cleared node has no entries. -/
lemma entries_cleared (k' : Kind) (b : Bool) :
    ({ d with content := d.content.cleared, modified := b } : NodeData).entries k' = [] := by
  obtain ⟨_, _, _, content, _, _⟩ := d
  cases content <;> cases k' <;> rfl

/-- A new entry does not change the kind. -/
@[simp]
lemma kind_push (b : Bool) :
    ({ d with content := d.content.push k id, modified := b } : NodeData).kind = d.kind := by
  obtain ⟨_, _, _, content, _, _⟩ := d
  cases content <;> cases k <;> rfl

/-- A lost entry does not change the kind. -/
@[simp]
lemma kind_erase (b : Bool) :
    ({ d with content := d.content.erase id, modified := b } : NodeData).kind = d.kind := by
  obtain ⟨_, _, _, content, _, _⟩ := d
  cases content <;> rfl

/-- To lose all entries does not change the kind. -/
@[simp]
lemma kind_cleared (b : Bool) :
    ({ d with content := d.content.cleared, modified := b } : NodeData).kind = d.kind := by
  obtain ⟨_, _, _, content, _, _⟩ := d
  cases content <;> rfl

end NodeData

namespace Configuration

variable {conf : Configuration} {id n : Nat} {d : NodeData}

/-- A node is live if it stands in the arena and is not deleted. -/
lemma live?_eq_some : conf.live? id = some d ↔ conf.nodes[id]? = some d ∧ d.deleted = false := by
  simp [live?, Option.filter_eq_some_iff]

/-- Some live node is flagged. -/
lemma isModified_iff :
    conf.isModified = true ↔ ∃ id d, conf.live? id = some d ∧ d.modified = true := by
  simp only [isModified, Array.any_eq_true, Bool.and_eq_true, Bool.not_eq_true', live?_eq_some]
  constructor
  · rintro ⟨id, lt, alive, flag⟩
    exact ⟨id, _, ⟨Array.getElem?_eq_getElem lt, alive⟩, flag⟩
  · rintro ⟨id, d, ⟨there, alive⟩, flag⟩
    obtain ⟨lt, rfl⟩ := Array.getElem?_eq_some_iff.1 there
    exact ⟨id, lt, alive, flag⟩

/-- A live node is in the arena. -/
lemma lt_size_of_live (h : conf.live? id = some d) : id < conf.nodes.size :=
  (Array.getElem?_eq_some_iff.1 (live?_eq_some.1 h).1).1

/-- A section is a live node of this kind. -/
lemma isSection_iff : conf.isSection id = true ↔
    ∃ d, conf.live? id = some d ∧ d.kind = .sectionKind := by
  simp [isSection, NodeData.kind_eq_sectionKind, Option.getD_eq_iff]

/-- A live node is named by its name. -/
lemma hasName_self (h : conf.live? id = some d) :
    conf.hasName id d.name = true := by
  simp [hasName, h]

/-- The arena after one node was changed. -/
lemma nodes_modifyNode (f : NodeData → NodeData) :
    (conf.modifyNode id f).nodes[n]? =
      if id = n then conf.nodes[n]?.map f else conf.nodes[n]? :=
  Array.getElem?_modify

/-- A change of one node that deletes nothing is seen at this node only. -/
lemma live?_modifyNode {f : NodeData → NodeData} (hf : ∀ d, (f d).deleted = d.deleted) :
    (conf.modifyNode id f).live? n = if id = n then (conf.live? n).map f else conf.live? n := by
  rw [live?, nodes_modifyNode]
  split
  · rw [live?]
    cases conf.nodes[n]? with
    | none => rfl
    | some d => by_cases hd : d.deleted <;> simp [Option.filter, hf, hd]
  · rfl

/-- The arena after some nodes were marked as deleted. -/
lemma nodes_markDeleted {ids : List NodeId} :
    (conf.markDeleted ids).nodes[n]? =
      if n ∈ ids then conf.nodes[n]?.map NodeData.buried else conf.nodes[n]? := by
  induction ids generalizing conf with
  | nil => simp [markDeleted]
  | cons id ids ih =>
    have step : conf.markDeleted (id :: ids) =
        (conf.modifyNode id NodeData.buried).markDeleted ids := rfl
    rw [step, ih, nodes_modifyNode]
    by_cases hn : id = n
    · subst hn
      by_cases hm : id ∈ ids
      · -- Marking a node twice is marking it once.
        simp [hm, Function.comp_def, NodeData.buried, Option.map_map]
        rfl
      · simp [hm]
    · have hne : n ≠ id := fun e => hn e.symm
      simp [hn, hne]

/-- What was marked as deleted is not live, and all else is as before. -/
lemma live?_markDeleted {ids : List NodeId} :
    (conf.markDeleted ids).live? n = if n ∈ ids then none else conf.live? n := by
  rw [live?, nodes_markDeleted]
  split
  · cases conf.nodes[n]? <;> simp [NodeData.buried]
  · rfl

/-- Changing a node adds none. -/
lemma size_modifyNode (f : NodeData → NodeData) :
    (conf.modifyNode id f).nodes.size = conf.nodes.size :=
  Array.size_modify

/-- Marking nodes as deleted adds none. -/
lemma size_markDeleted {ids : List NodeId} :
    (conf.markDeleted ids).nodes.size = conf.nodes.size := by
  induction ids generalizing conf with
  | nil => rfl
  | cons id ids ih =>
    have step : conf.markDeleted (id :: ids) =
        (conf.modifyNode id NodeData.buried).markDeleted ids := rfl
    rw [step, ih, size_modifyNode]

/-- A new node is one more. -/
lemma size_addNode {kind : Kind} {parent : Nat} {name : String} {value : Option String} :
    (conf.addNode kind parent name value).nodes.size = conf.nodes.size + 1 := by
  rw [addNode, size_modifyNode, Array.size_push]

/-- The arena after a node was added below a live one. -/
lemma nodes_addNode {kind : Kind} {parent : Nat} {name : String} {value : Option String}
    (h : parent < conf.nodes.size) :
    (conf.addNode kind parent name value).nodes[n]? =
      if n = conf.nodes.size then
        some ⟨name, value, some parent, kind.freshContent, true, false⟩
      else if n = parent then
        conf.nodes[n]?.map fun p =>
          { p with content := p.content.push kind conf.nodes.size, modified := true }
      else conf.nodes[n]? := by
  rw [addNode, nodes_modifyNode, Array.getElem?_push]
  by_cases hn : n = conf.nodes.size
  · simp [hn, Nat.ne_of_lt h]
  · simp [hn, eq_comm (a := parent)]

/-- The live nodes after a node was added below a live one. -/
lemma live?_addNode {kind : Kind} {parent : Nat} {name : String} {value : Option String}
    (h : parent < conf.nodes.size) :
    (conf.addNode kind parent name value).live? n =
      if n = conf.nodes.size then
        some ⟨name, value, some parent, kind.freshContent, true, false⟩
      else if n = parent then
        (conf.live? n).map fun p =>
          { p with content := p.content.push kind conf.nodes.size, modified := true }
      else conf.live? n := by
  rw [live?, nodes_addNode h]
  split
  · rfl
  · split
    · rw [live?]
      cases conf.nodes[n]? with
      | none => rfl
      | some d => by_cases hd : d.deleted <;> simp [Option.filter, hd]
    · rfl

/-- The name of a live node. -/
lemma nameOf_eq (h : conf.live? id = some d) : conf.nameOf id = d.name := by
  simp [nameOf, h]

/-- The value of a live node. -/
lemma verbatim?_eq (h : conf.live? id = some d) : conf.verbatim? id = d.value := by
  simp [verbatim?, h]

/-- The child sections of a live node. -/
lemma childrenOf_eq (h : conf.live? id = some d) : conf.childrenOf id = d.entries .sectionKind := by
  simp [childrenOf, h, NodeData.entries]

/-- The attributes of a live node. -/
lemma attributesOf_eq (h : conf.live? id = some d) :
    conf.attributesOf id = d.entries .attributeKind := by
  simp [attributesOf, h, NodeData.entries]

end Configuration

end ConfTree
