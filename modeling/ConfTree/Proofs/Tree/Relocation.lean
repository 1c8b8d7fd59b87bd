import ConfTree.Proofs.Tree.Copy

/-!
# One tree in two arenas

Two arenas may hold one tree at different places: the root at its place in both, and all else from
place `n` on in the one, and from place `m` on in the other. Whatever is added to both of them
leaves them so (`Relocated.addNode`), and the shapes of their sections are equal
(`Relocated.shape`).
-/

namespace ConfTree

/-- The content with all entries at other places. -/
def Content.map (f : NodeId → NodeId) : Content → Content
  | .lists children attributes => .lists (children.map f) (attributes.map f)
  | .leaf => .leaf

/-- Entries can be moved before or after a new one is added. -/
lemma Content.map_push (f : NodeId → NodeId) (content : Content) (kind : Kind) (id : NodeId) :
    (content.push kind id).map f = (content.map f).push kind (f id) := by
  cases content <;> cases kind <;> simp [push, map]

/-- There is nothing to move in what is new. -/
lemma Content.map_fresh (f : NodeId → NodeId) (kind : Kind) :
    kind.freshContent.map f = kind.freshContent := by
  cases kind <;> simp [Kind.freshContent, map]

namespace NodeData

variable {d e : NodeData} {f : NodeId → NodeId}

/-- A moved node keeps its kind. -/
lemma kind_of_content (h : e.content = d.content.map f) : e.kind = d.kind := by
  unfold kind isSection
  rw [h]
  cases d.content <;> rfl

/-- The entries of a moved node are those that it had, moved. -/
lemma entries_of_content (h : e.content = d.content.map f) (k : Kind) :
    e.entries k = (d.entries k).map f := by
  cases k <;>
  · unfold entries
    simp only [children, NodeData.attributes, h]
    cases d.content <;> simp [Content.map]

end NodeData

namespace Configuration

/-- The place of a node in an arena that goes on from place `m`, where its own goes on from place
`n`. -/
def relocate (n m : Nat) (id : Nat) : Nat := if id = root then root else id - n + m

/-- The arenas hold the same tree, from place `n` on and from place `m` on. -/
structure Relocated (n m : Nat) (conf conf' : Configuration) : Prop where
  wellFormed : conf.WellFormed
  wellFormed' : conf'.WellFormed
  writable : conf.readOnly = false
  writable' : conf'.readOnly = false
  start : 0 < n
  start' : 0 < m
  size : n ≤ conf.nodes.size
  size' : conf'.nodes.size = relocate n m conf.nodes.size
  /-- Before place `n` nothing but the root is left. -/
  bare : ∀ (id : Nat) d, conf.live? id = some d → id = root ∨ n ≤ id
  same : ∀ (id : Nat) d, conf.live? id = some d →
    ∃ e, conf'.live? (relocate n m id) = some e ∧ e.name = d.name ∧ e.value = d.value ∧
      e.content = d.content.map (relocate n m)

/-- Nodes at different places stay at different places. -/
lemma relocate_inj {n m a b : Nat} (start : 0 < n) (start' : 0 < m) (ha : a = root ∨ n ≤ a)
    (hb : b = root ∨ n ≤ b) (h : relocate n m a = relocate n m b) : a = b := by
  unfold relocate at h
  unfold root at *
  split at h <;> split at h <;> omega

namespace Relocated

variable {n m : Nat} {conf conf' : Configuration} (h : Relocated n m conf conf')

include h

/-- A section stands for a section. -/
lemma live_section {id : Nat} {d : NodeData} (live : conf.live? id = some d)
    (sec : d.kind = .sectionKind) :
    ∃ e, conf'.live? (relocate n m id) = some e ∧ e.kind = .sectionKind := by
  obtain ⟨e, he, -, -, content⟩ := h.same id d live
  exact ⟨e, he, (NodeData.kind_of_content content).trans sec⟩

/-- The next node of the one arena stands for the next node of the other. -/
lemma size_addNode {kind : Kind} {p p' : Nat} {name : String} {value : Option String} :
    (conf'.addNode kind p' name value).nodes.size =
      relocate n m (conf.addNode kind p name value).nodes.size := by
  have start := h.start
  have size := h.size
  have size' := h.size'
  simp only [Configuration.addNode, modifyNode, Array.size_modify, Array.size_push]
  unfold relocate root at *
  split at size' <;> split <;> omega

/-- A node that is added to both trees leaves them the same. -/
lemma addNode {p : Nat} {pd : NodeData} (live : conf.live? p = some pd)
    (sec : pd.kind = .sectionKind) (kind : Kind) {name : String} (good : GoodName name)
    (value : Option String) :
    Relocated n m (conf.addNode kind p name value)
      (conf'.addNode kind (relocate n m p) name value) := by
  obtain ⟨pe, live', nameP, valueP, contentP⟩ := h.same p pd live
  have sec' : pe.kind = .sectionKind := (NodeData.kind_of_content contentP).trans sec
  have inside := lt_size_of_live live
  have start := h.start
  have size := h.size
  refine ⟨h.wellFormed.addNode live sec good, h.wellFormed'.addNode live' sec' good, h.writable,
    h.writable', h.start, h.start', ?_, h.size_addNode, fun id d hd => ?_, fun id d hd => ?_⟩
  · simpa [Configuration.addNode, modifyNode] using Nat.le_succ_of_le size
  · rcases live?_addNode_cases live hd with rfl | ⟨e, he⟩
    · exact .inr size
    · exact h.bare id e he
  · -- The node is the new one, its parent, or another one.
    by_cases new : id = conf.nodes.size
    · subst new
      rw [live?_addNode_new live] at hd
      cases hd
      rw [← h.size']
      exact ⟨_, live?_addNode_new live', rfl, rfl, (Content.map_fresh _ kind).symm⟩
    · by_cases parent : id = p
      · subst parent
        rw [live?_addNode_parent live] at hd
        cases hd
        refine ⟨_, live?_addNode_parent live', nameP, valueP, ?_⟩
        rw [Content.map_push, contentP, h.size']
      · rw [live?_addNode_of_ne live new parent] at hd
        obtain ⟨e, he, same⟩ := h.same id d hd
        refine ⟨e, ?_, same⟩
        rw [live?_addNode_of_ne live' ?_ ?_, he]
        · rw [h.size']
          exact fun eq => new (relocate_inj h.start h.start' (h.bare id d hd) (.inr size) eq)
        · exact fun eq => parent
            (relocate_inj h.start h.start' (h.bare id d hd) (h.bare p pd live) eq)

/-- What stands for each other has the same shape. -/
lemma shape {id : Nat} {d : NodeData} (live : conf.live? id = some d) :
    conf'.shape (relocate n m id) = conf.shape id := by
  -- Entries come after the node that lists them, so the rest of the arena gets shorter.
  induction rest : conf.nodes.size - id using Nat.strongRecOn generalizing id d with
  | ind rest ih =>
    obtain ⟨e, live', name, value, content⟩ := h.same id d live
    rw [shape_eq h.wellFormed live, shape_eq h.wellFormed' live', name, value,
      NodeData.entries_of_content content, NodeData.entries_of_content content, List.map_map,
      List.map_map]
    congr 1
    · refine List.map_congr_left fun c hc => ?_
      obtain ⟨x, hx, -⟩ := h.wellFormed.listed id d _ c live hc
      obtain ⟨y, hy, name, value, -⟩ := h.same c x hx
      rw [Function.comp, pairOf_eq hx, pairOf_eq hy, name, value]
    · refine List.map_congr_left fun c hc => ?_
      obtain ⟨x, hx, -⟩ := h.wellFormed.listed id d _ c live hc
      have later := h.wellFormed.lt_of_mem_entries live hc
      have inside := lt_size_of_live hx
      exact ih _ (by omega) hx rfl

end Relocated

/-- Two trees of a bare root are the same, whatever their arenas hold besides. -/
lemma relocated_of_bare {conf conf' : Configuration} (wf : conf.WellFormed)
    (wf' : conf'.WellFormed) (writable : conf.readOnly = false) (writable' : conf'.readOnly = false)
    {d e : NodeData} (live : conf.live? root = some d) (live' : conf'.live? root = some e)
    (name : e.name = d.name) (value : e.value = d.value)
    (bare : d.content = Kind.sectionKind.freshContent)
    (bare' : e.content = Kind.sectionKind.freshContent)
    (only : ∀ (id : Nat) x, conf.live? id = some x → id = root) :
    Relocated conf.nodes.size conf'.nodes.size conf conf' := by
  have start := lt_size_of_live live
  refine ⟨wf, wf', writable, writable', start, lt_size_of_live live', Nat.le_refl _, ?_,
    fun id x hx => .inl (only id x hx), fun id x hx => ?_⟩
  · rw [relocate, if_neg (Nat.ne_of_gt start), Nat.sub_self, Nat.zero_add]
  · obtain rfl := only id x hx
    rw [live] at hx
    cases hx
    exact ⟨e, live', name, value, by rw [bare, bare', Content.map_fresh]⟩

end Configuration

end ConfTree
