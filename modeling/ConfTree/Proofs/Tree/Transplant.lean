import ConfTree.Proofs.Operation.Reachable
import ConfTree.Proofs.Tree.Twins

/-!
# Transplants

An import adds nodes to the end of an arena, and touches none of the old ones but the section that
it imports into. While the copy grows, each node is appended to its top or to a node that was added
before it, so all that was added is live and modified, and all else is as it was (`Lengthened`). In
the end the copy has the shape of what was imported (`importNode_spec`, `importRoot_spec`).
-/

namespace ConfTree

namespace Configuration

/-- The arena goes on behind its old end, and of the old nodes only `top` has changed. -/
structure Lengthened (top : Nat) (before after : Configuration) : Prop where
  size : before.nodes.size ≤ after.nodes.size
  old : ∀ id < before.nodes.size, id ≠ top → after.nodes[id]? = before.nodes[id]?
  added : ∀ id, before.nodes.size ≤ id → id < after.nodes.size →
    ∃ d, after.live? id = some d ∧ d.modified = true
  top : ∃ d, after.live? top = some d ∧ d.modified = true
  /-- Nothing but the arena is different. -/
  settings : { after with nodes := before.nodes } = before

namespace Lengthened

variable {before conf : Configuration} {top q : Nat}

/-- A modified node is lengthened by nothing. -/
lemma refl {d : NodeData} (live : conf.live? top = some d) (modified : d.modified = true) :
    Lengthened top conf conf :=
  ⟨Nat.le_refl _, fun _ _ _ => rfl, fun _ first last => absurd last (Nat.not_lt_of_le first),
    ⟨d, live, modified⟩, rfl⟩

/-- Older nodes beside the top one are as they were. -/
lemma live?_old (h : Lengthened top before conf) {id : Nat} (old : id < before.nodes.size)
    (ne : id ≠ top) : conf.live? id = before.live? id := by
  rw [live?, live?, h.old id old ne]

/-- A node is added to the top or to a node that was added before. -/
lemma addNode (h : Lengthened top before conf) {qd : NodeData} (live : conf.live? q = some qd)
    (place : q = top ∨ before.nodes.size ≤ q) (kind : Kind) (name : String)
    (value : Option String) : Lengthened top before (conf.addNode kind q name value) := by
  have inside := lt_size_of_live live
  have size := h.size
  have marked : ∀ {id : Nat} {d : NodeData}, conf.live? id = some d → d.modified = true →
      ∃ e, (conf.addNode kind q name value).live? id = some e ∧ e.modified = true := by
    intro id d hd modified
    have := lt_size_of_live hd
    by_cases here : id = q
    · subst here
      exact ⟨_, live?_addNode_parent hd, rfl⟩
    · exact ⟨d, (live?_addNode_of_ne live (by omega) here).trans hd, modified⟩
  constructor
  case size =>
    rw [size_addNode]
    omega
  case old =>
    intro id old ne
    rw [nodes_addNode inside, if_neg (by omega), if_neg (by omega), h.old id old ne]
  case added =>
    intro id new last
    rw [size_addNode] at last
    by_cases here : id = conf.nodes.size
    · subst here
      exact ⟨_, live?_addNode_new live, rfl⟩
    · obtain ⟨d, hd, modified⟩ := h.added id new (by omega)
      exact marked hd modified
  case top =>
    obtain ⟨d, hd, modified⟩ := h.top
    exact marked hd modified
  case settings => exact h.settings

end Lengthened

end Configuration

/-! ## Copies that grow -/

namespace Edit

open ConfTree.Configuration

section

variable {before : Configuration} {top : Nat}

/-- Appending to the top or to what is new lengthens. -/
lemma lengthens_append {q : Nat} (place : q = top ∨ before.nodes.size ≤ q) (kind : Kind)
    (name : String) (value : Option String) :
    Keeps (Lengthened top before) (append kind q name value) fun id => before.nodes.size ≤ id := by
  refine .checked fun conf stored h passed => ?_
  obtain ⟨-, -, -, qd, live, -⟩ := appendable_iff.1 passed
  exact ⟨h.addNode live place kind stored value, h.size⟩

/-- Copying attributes to the top or to what is new lengthens. -/
lemma lengthens_copyAttributes {q : Nat} (place : q = top ∨ before.nodes.size ≤ q)
    (attributes : List Attribute) :
    Keeps (Lengthened top before) (copyAttributes q attributes) fun _ => True := by
  induction attributes with
  | nil => exact .pure trivial
  | cons a attributes ih =>
    rw [copyAttributes]
    exact .bind (lengthens_append place _ _ _) fun _ _ => ih

mutual

/-- A copy below an added node adds nodes only. -/
lemma lengthens_copySubtree : ∀ (t : Subtree) {q : Nat}, q = top ∨ before.nodes.size ≤ q →
    Keeps (Lengthened top before) (copySubtree q t) fun _ => True
  | .mk _ name value attributes children, q, place => by
    rw [copySubtree]
    refine .bind (lengthens_append place _ name value) fun id new => ?_
    refine .bind (lengthens_copyAttributes (.inr new) attributes) fun _ _ => ?_
    exact .bind (lengthens_copySubtrees children (.inr new)) fun _ _ => .pure trivial

/-- Copying trees to the top or to what is new lengthens. -/
lemma lengthens_copySubtrees : ∀ (ts : List Subtree) {q : Nat}, q = top ∨ before.nodes.size ≤ q →
    Keeps (Lengthened top before) (copySubtrees q ts) fun _ => True
  | [], _, _ => .pure trivial
  | t :: ts, _, place => by
    rw [copySubtrees]
    exact .bind (lengthens_copySubtree t place) fun _ _ => lengthens_copySubtrees ts place

end

/-- Content that is copied into a section changes no old node but the section. -/
lemma lengthens_copyContent {conf after : Configuration} {d : NodeData}
    (live : conf.live? top = some d) (modified : d.modified = true) {source : Subtree}
    (run : (copyContent top source).apply conf = (.ok (), after)) : Lengthened top conf after := by
  have keeps : Keeps (Lengthened top conf) (copyContent top source) fun _ => True :=
    .bind (lengthens_copyAttributes (.inl rfl) _) fun _ _ => lengthens_copySubtrees _ (.inl rfl)
  have lengthened := (keeps conf (.refl live modified)).1
  rwa [run] at lengthened

end

/-- The copy of a subtree is a new section into which the content is copied. -/
lemma apply_copySubtree {conf after : Configuration} {parent c : Nat} {pd : NodeData}
    (writable : conf.readOnly = false) (hp : conf.live? parent = some pd)
    (sec : pd.kind = .sectionKind) {t : Subtree} (named : t.Named)
    (run : (copySubtree parent t).apply conf = (.ok c, after)) :
    (copyContent conf.nodes.size t).apply (conf.addNode .sectionKind parent t.name t.value) =
      (.ok (), after) := by
  obtain ⟨_, name, value, attributes, children⟩ := t
  rw [copySubtree, addSection, apply_bind_ok (apply_append writable hp sec named.1)] at run
  obtain ⟨_, filled, attributesRun, rest⟩ := of_apply_bind_ok run
  obtain ⟨_, full, childrenRun, last⟩ := of_apply_bind_ok rest
  cases last
  exact (apply_bind_ok attributesRun).trans childrenRun

end Edit

namespace Configuration

/-! ## Copies of nodes -/

/-- A node of the kind and the shape came to the end of the list of its kind, and nothing else
happened. -/
structure Transplanted (conf : Configuration) (parent : NodeId) (pd : NodeData) (kind : Kind)
    (shape : Shape) (after : Configuration) : Prop where
  wellFormed : after.WellFormed
  /-- The section has one more entry, and counts as modified. -/
  host : after.live? parent =
    some { pd with content := pd.content.push kind conf.nodes.size, modified := true }
  copy : ∃ d, after.live? conf.nodes.size = some d ∧ d.kind = kind ∧ d.parent = some parent
  shape : after.shape conf.nodes.size = shape
  /-- The copy is made of all nodes that are new. -/
  below : ∀ id, after.Below conf.nodes.size id ↔ conf.nodes.size ≤ id ∧ id < after.nodes.size
  marked : ∀ id, after.Below conf.nodes.size id →
    ∃ d, after.live? id = some d ∧ d.modified = true
  /-- The old nodes, dead or live, are as they were. -/
  kept : ∀ id < conf.nodes.size, id ≠ parent → after.nodes[id]? = conf.nodes[id]?
  settings : { after with nodes := conf.nodes } = conf

section

variable {conf after : Configuration} {parent : Nat} {pd : NodeData} {kind : Kind} {name : String}
  {value : Option String} {shape : Shape}

section

variable (wf : conf.WellFormed) (hp : conf.live? parent = some pd) (sec : pd.kind = .sectionKind)
  (host : after.live? parent =
    some { pd with content := pd.content.push kind conf.nodes.size, modified := true })
  (kept : ∀ id < conf.nodes.size, id ≠ parent → after.nodes[id]? = conf.nodes[id]?)

include wf hp sec host kept

/-- An old section lists no new node but the first one. -/
lemma eq_size_of_mem_entries {q id : Nat} {qd : NodeData} {k : Kind} (old : q < conf.nodes.size)
    (live : after.live? q = some qd) (hm : id ∈ qd.entries k) (new : conf.nodes.size ≤ id) :
    id = conf.nodes.size := by
  have known : ∀ {x : Nat} {xd : NodeData}, conf.live? x = some xd → id ∉ xd.entries k := by
    intro x xd hx hm
    obtain ⟨e, he, -⟩ := wf.listed x xd k id hx hm
    have := lt_size_of_live he
    omega
  by_cases here : q = parent
  · subst here
    rw [host] at live
    cases live
    rw [NodeData.entries_push sec] at hm
    split at hm
    · exact List.mem_singleton.1 ((List.mem_append.1 hm).resolve_left (known hp))
    · exact absurd hm (known hp)
  · rw [live?, kept q old here, ← live?] at live
    exact absurd hm (known live)

/-- All live nodes that are new lie below the first one. -/
lemma below_size (wf' : after.WellFormed) {id : Nat} {d : NodeData} (live : after.live? id = some d)
    (new : conf.nodes.size ≤ id) : after.Below conf.nodes.size id := by
  -- Parents come before their entries.
  induction id using Nat.strongRecOn generalizing d with
  | ind id ih =>
    have inside := lt_size_of_live hp
    have other : id ≠ root := fun first => by
      rw [first, root] at new
      omega
    obtain ⟨q, qd, hq, lt, live', -, once⟩ := wf'.owned id d live other
    by_cases old : q < conf.nodes.size
    · have listed : id ∈ qd.entries d.kind := List.count_pos_iff.1 (by omega)
      rw [eq_size_of_mem_entries wf hp sec host kept old live' listed new]
      exact .self
    · exact .step live hq (ih q lt live' (by omega))

end

/-- A node that was added, and then filled, was transplanted. -/
lemma Lengthened.transplanted (wf : conf.WellFormed) (hp : conf.live? parent = some pd)
    (sec : pd.kind = .sectionKind)
    (h : Lengthened conf.nodes.size (conf.addNode kind parent name value) after)
    (wf' : after.WellFormed) (same : after.shape conf.nodes.size = shape) :
    Transplanted conf parent pd kind shape after := by
  have inside := lt_size_of_live hp
  have size := @size_addNode conf kind parent name value
  have host : after.live? parent =
      some { pd with content := pd.content.push kind conf.nodes.size, modified := true } :=
    (h.live?_old (by omega) (by omega)).trans (live?_addNode_parent hp)
  have kept : ∀ id < conf.nodes.size, id ≠ parent → after.nodes[id]? = conf.nodes[id]? := by
    intro id old ne
    rw [h.old id (by omega) (by omega), nodes_addNode inside, if_neg (by omega), if_neg ne]
  have copy : ∃ d, after.live? conf.nodes.size = some d ∧ d.kind = kind ∧
      d.parent = some parent := by
    refine wf'.listed parent _ kind _ host ?_
    rw [NodeData.entries_push sec, if_pos rfl]
    simp
  have new : ∀ id, conf.nodes.size ≤ id → id < after.nodes.size →
      ∃ d, after.live? id = some d ∧ d.modified = true := by
    intro id first last
    by_cases here : id = conf.nodes.size
    · rw [here]
      exact h.top
    · exact h.added id (by omega) last
  have below : ∀ id, after.Below conf.nodes.size id ↔
      conf.nodes.size ≤ id ∧ id < after.nodes.size := by
    intro id
    constructor
    · intro hb
      obtain ⟨d, hd, -⟩ := copy
      obtain ⟨e, he⟩ := hb.live hd
      exact ⟨hb.le wf', lt_size_of_live he⟩
    · rintro ⟨first, last⟩
      obtain ⟨d, hd, -⟩ := new id first last
      exact below_size wf hp sec host kept wf' hd first
  refine ⟨wf', host, copy, same, below, fun id hb => ?_, kept,
    congrArg (fun c : Configuration => { c with nodes := conf.nodes }) h.settings⟩
  exact new id ((below id).1 hb).1 ((below id).1 hb).2

end

/-- The root became one of the shape, and of the old nodes no other is left. -/
structure Supplanted (conf : Configuration) (shape : Shape) (after : Configuration) : Prop where
  wellFormed : after.WellFormed
  root : ∃ d, after.live? root = some d ∧ d.kind = .sectionKind ∧ d.parent = none
  shape : after.shape Configuration.root = shape
  /-- The tree is made of the root and of all nodes that are new. -/
  below : ∀ id, after.Below Configuration.root id ↔
    id = Configuration.root ∨ conf.nodes.size ≤ id ∧ id < after.nodes.size
  marked : ∀ id, after.Below Configuration.root id →
    ∃ d, after.live? id = some d ∧ d.modified = true
  dead : ∀ id < conf.nodes.size, id ≠ Configuration.root → after.live? id = none
  settings : { after with nodes := conf.nodes } = conf

/-- A root that was bared, and then filled, was supplanted. -/
lemma Lengthened.supplanted {conf after : Configuration} {name : String} {value : Option String}
    {shape : Shape} (wf : conf.WellFormed) (h : Lengthened root (conf.bared name value) after)
    (wf' : after.WellFormed) (same : after.shape root = shape) : Supplanted conf shape after := by
  have size := @size_bared conf name value
  have dead : ∀ id < conf.nodes.size, id ≠ root → after.live? id = none := by
    intro id old other
    obtain ⟨_, -, -, -, -, only⟩ := live?_bared wf name value
    rw [h.live?_old (by omega) other]
    exact Option.eq_none_iff_forall_ne_some.2 fun d live => other (only id d live)
  have below : ∀ id, after.Below root id ↔
      id = root ∨ conf.nodes.size ≤ id ∧ id < after.nodes.size := by
    intro id
    constructor
    · intro hb
      obtain ⟨r, hr, -⟩ := wf'.root
      obtain ⟨d, hd⟩ := hb.live hr
      by_cases top : id = root
      · exact .inl top
      · refine .inr ⟨Nat.le_of_not_lt fun old => ?_, lt_size_of_live hd⟩
        rw [dead id old top] at hd
        cases hd
    · rintro (rfl | ⟨new, last⟩)
      · exact .self
      · obtain ⟨d, hd, -⟩ := h.added id (by omega) last
        exact wf'.below_root hd
  have settings := congrArg (fun c : Configuration => { c with nodes := conf.nodes }) h.settings
  refine ⟨wf', wf'.root, same, below, fun id hb => ?_, dead, settings.trans settings_bared⟩
  rcases (below id).1 hb with rfl | ⟨new, last⟩
  · exact h.top
  · exact h.added id (by omega) last

section

variable {conf other : Configuration} (wf : conf.WellFormed) (writable : conf.readOnly = false)
  (wfo : other.WellFormed)

include wf writable wfo

/-- An import of a live node below a section succeeds, and transplants the node. -/
lemma importNode_spec {parent node : Nat} {pd d : NodeData} (hp : conf.live? parent = some pd)
    (sec : pd.kind = .sectionKind) (hn : other.live? node = some d) :
    ∃ after, (Edit.importNode parent other node).apply conf = (.ok conf.nodes.size, after) ∧
      Transplanted conf parent pd d.kind (other.shape node) after := by
  have good := wfo.named node d hn
  have new : ∀ kind, (conf.addNode kind parent d.name d.value).live? conf.nodes.size = some _ :=
    fun _ => live?_addNode_new hp
  rw [Edit.importNode, hn]
  cases kind : d.kind with
  | sectionKind =>
    have named := named_subtree wfo hn
    obtain ⟨after, run, confined, -⟩ := Edit.copySubtree_spec wf writable hp sec named
    have filled := Edit.apply_copySubtree writable hp sec named run
    rw [subtree_eq wfo hn] at filled
    refine ⟨after, ?_, ?_⟩
    · rw [← run]
      dsimp only
      rw [if_pos (NodeData.kind_eq_sectionKind.1 kind)]
    · exact (Edit.lengthens_copyContent (new _) rfl filled).transplanted wf hp sec
        confined.wellFormed (Edit.shape_copySubtree wf named run).2
  | attributeKind =>
    refine ⟨conf.addNode .attributeKind parent d.name d.value, ?_, ?_⟩
    · dsimp only
      rw [if_neg (by rw [NodeData.kind_eq_attributeKind.1 kind]; simp)]
      exact Edit.apply_append writable hp sec good
    · refine (Lengthened.refl (new _) rfl).transplanted wf hp sec (wf.addNode hp sec good) ?_
      rw [shape_addNode_new wf hp sec good, shape_eq wfo hn, NodeData.entries_of_attribute kind,
        NodeData.entries_of_attribute kind]
      rfl

/-- An import of a root succeeds, and supplants the root. -/
lemma importRoot_spec : ∃ after, (Edit.importRoot other).apply conf = (.ok (), after) ∧
    Supplanted conf (other.shape root) after := by
  obtain ⟨d, hd, sec, -⟩ := wf.root
  obtain ⟨e, he, -⟩ := wfo.root
  have named := named_subtree wfo he
  rw [Edit.importRoot, shape]
  generalize other.subtree root = source at named
  -- The root is bared, and what it then holds is what it is given.
  have good := named.name
  have emptied := live?_emptyNode_self wf hd
  have bare : (conf.bared source.name source.value).live? root = some _ := live?_bared_root wf hd
  obtain ⟨after, run, confined, shape⟩ := Edit.copyContent_spec (wf.bared good source.value)
    (readOnly_bared.trans writable) bare ((NodeData.kind_cleared true).trans sec) named
  refine ⟨after, ?_, ?_⟩
  · have renamed : (Edit.rename root source.name).apply (conf.emptyNode root) = (.ok (), _) :=
      Edit.apply_rename writable emptied good
    have valued : (Edit.setValue root source.value).apply
        ((conf.emptyNode root).replaceName root source.name) = (.ok (), _) :=
      Edit.apply_setValue writable (live?_replaceName_self emptied)
    rw [Edit.apply_bind_ok (Edit.apply_clear writable hd sec), Edit.apply_bind_ok renamed,
      Edit.apply_bind_ok valued]
    exact run
  · refine (Edit.lengthens_copyContent bare rfl run).supplanted wf confined.wellFormed ?_
    rw [shape, shape_bared wf good]
    cases source
    rfl

end

/-- Imports into a writable configuration succeed. A live node that is imported below a section
comes last in the list of its kind, as an exact copy that is made of all nodes that are new, and all
other nodes are as they were. If a root is imported, then the root becomes an exact copy of it that
is made of itself and of all nodes that are new, and all other nodes die. -/
theorem imports_exact {conf other : Configuration} (reach : Reachable conf)
    (writable : conf.readOnly = false) (reach' : Reachable other) :
    (∀ parent node pd d, conf.live? parent = some pd → pd.kind = .sectionKind →
      other.live? node = some d →
      ∃ after, (Edit.importNode parent other node).apply conf = (.ok conf.nodes.size, after) ∧
        Transplanted conf parent pd d.kind (other.shape node) after) ∧
      ∃ after, (Edit.importRoot other).apply conf = (.ok (), after) ∧
        Supplanted conf (other.shape root) after := by
  refine ⟨fun parent node pd d hp sec hn => ?_, ?_⟩
  · exact importNode_spec reach.wellFormed writable reach'.wellFormed hp sec hn
  · exact importRoot_spec reach.wellFormed writable reach'.wellFormed

/-- A section with an attribute without a value and a section with an empty one is copied behind
two dead nodes. -/
theorem imports_exact_behind :
    let conf := (withRoot "base").operateAll
      [(.bare, .addSection 0 "a" none), (.bare, .addAttribute 1 "x" (some "1")), (.bare, .delete 1)]
    let other := (withRoot "other").operateAll
      [(.bare, .addSection 0 "Größe" none), (.bare, .addAttribute 1 "x" none),
        (.bare, .addSection 1 "t" (some ""))]
    ∃ after, (Edit.importNode 0 other 1).apply conf = (.ok 3, after) ∧
      after.shape 3 = other.shape 1 ∧ ∀ id, after.Below 3 id ↔ 3 ≤ id ∧ id < after.nodes.size := by
  intro conf other
  have reach : Reachable conf :=
    (Reachable.withRoot "base").operateAll _ (by simp [Operation.others])
  have reach' : Reachable other :=
    (Reachable.withRoot "other").operateAll _ (by simp [Operation.others])
  have writable : conf.readOnly = false := by decide +kernel
  obtain ⟨after, run, copied⟩ := (imports_exact reach writable reach').1 0 1
    ⟨"base", none, none, .lists #[] #[], true, false⟩
    ⟨"Größe", none, some 0, .lists #[3] #[2], true, false⟩ (by decide +kernel) rfl
    (by decide +kernel)
  have size : conf.nodes.size = 3 := by decide +kernel
  rw [size] at run
  exact ⟨after, run, size ▸ copied.shape, size ▸ copied.below⟩

end Configuration

end ConfTree
