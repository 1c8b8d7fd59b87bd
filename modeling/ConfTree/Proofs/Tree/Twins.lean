import ConfTree.Proofs.Operation.Edits
import ConfTree.Proofs.Tree.Copy
import Mathlib.Data.List.Forall2

/-!
# Twins

Two sections of one shape hold the same nodes at different places of their arenas: each node below
one of them has its `Twins` partner below the other, at the same position of every list on the way
down. Twins have one name, one value and lists of twins, their parents are twins, and no node has
two twins (`Mirror.biUnique`). A section and its copy mirror each other (`mirror_importNode`).
-/

namespace ConfTree

open Relation

namespace Configuration

/-- The nodes stand at the same position below two sections. -/
inductive Twins (conf conf' : Configuration) (top top' : NodeId) : NodeId → NodeId → Prop where
  | top :
    Twins conf conf' top top' top top'
  | entry {x y a b d e k} {i : Nat} :
    Twins conf conf' top top' x y →
    conf.live? x = some d →
    conf'.live? y = some e →
    (d.entries k)[i]? = some a →
    (e.entries k)[i]? = some b →
    Twins conf conf' top top' a b

/-- Two live sections have one shape. -/
structure Mirror (conf conf' : Configuration) (top top' : NodeId) : Prop where
  wellFormed : conf.WellFormed
  wellFormed' : conf'.WellFormed
  live : ∃ d, conf.live? top = some d ∧ d.kind = .sectionKind
  live' : ∃ d, conf'.live? top' = some d ∧ d.kind = .sectionKind
  shape : conf.shape top = conf'.shape top'

/-- Lists that are related item by item have related items at each position. -/
lemma rel_getElem? {α β : Type} {R : α → β → Prop} {as : List α} {bs : List β}
    (h : List.Forall₂ R as bs) (i : Nat) : Option.Rel R as[i]? bs[i]? := by
  induction h generalizing i with
  | nil => exact .none
  | cons first _ ih =>
    cases i with
    | zero => exact .some first
    | succ i => exact ih i

variable {conf conf' : Configuration} {top top' x y : Nat}

/-- Twins are twins of each other. -/
lemma Twins.symm (h : Twins conf conf' top top' x y) : Twins conf' conf top' top y x := by
  induction h with
  | top => exact .top
  | entry _ live live' ha hb ih => exact .entry ih live' live hb ha

/-- Nodes of one shape have one name and one value, and lists that look the same. -/
lemma parts_of_shape_eq (wf : conf.WellFormed) (wf' : conf'.WellFormed) {d e : NodeData}
    (live : conf.live? x = some d) (live' : conf'.live? y = some e)
    (same : conf.shape x = conf'.shape y) :
    d.name = e.name ∧ d.value = e.value ∧
      (d.entries .attributeKind).map conf.pairOf = (e.entries .attributeKind).map conf'.pairOf ∧
      (d.entries .sectionKind).map conf.shape = (e.entries .sectionKind).map conf'.shape := by
  rw [shape_eq wf live, shape_eq wf' live'] at same
  injection same with name value attributes children
  exact ⟨name, value, attributes, children⟩

namespace Mirror

variable (m : Mirror conf conf' top top')

include m

/-- A mirror shows either side in the other. -/
lemma symm : Mirror conf' conf top' top :=
  ⟨m.wellFormed', m.wellFormed, m.live', m.live, m.shape.symm⟩

/-- Twins are live nodes of one kind and one shape. -/
lemma same (h : Twins conf conf' top top' x y) :
    ∃ d e, conf.live? x = some d ∧ conf'.live? y = some e ∧ d.kind = e.kind ∧
      conf.shape x = conf'.shape y := by
  induction h with
  | top =>
    obtain ⟨d, live, sec⟩ := m.live
    obtain ⟨e, live', sec'⟩ := m.live'
    exact ⟨d, e, live, live', sec.trans sec'.symm, m.shape⟩
  | @entry x y a b d e k i _ live live' ha hb ih =>
    obtain ⟨d₁, e₁, live₁, live₁', -, shape⟩ := ih
    rw [live] at live₁
    rw [live'] at live₁'
    cases live₁
    cases live₁'
    obtain ⟨-, -, attributes, children⟩ :=
      parts_of_shape_eq m.wellFormed m.wellFormed' live live' shape
    obtain ⟨da, livea, kinda, -⟩ := m.wellFormed.listed x d k a live (List.mem_of_getElem? ha)
    obtain ⟨eb, liveb, kindb, -⟩ := m.wellFormed'.listed y e k b live' (List.mem_of_getElem? hb)
    refine ⟨da, eb, livea, liveb, kinda.trans kindb.symm, ?_⟩
    cases k with
    | sectionKind =>
      have shape := congrArg (·[i]?) children
      simpa only [List.getElem?_map, ha, hb, Option.map_some, Option.some.injEq] using shape
    | attributeKind =>
      have pair := congrArg (·[i]?) attributes
      simp only [List.getElem?_map, ha, hb, Option.map_some, Option.some.injEq, pairOf_eq livea,
        pairOf_eq liveb, Prod.mk.injEq] at pair
      rw [shape_eq m.wellFormed livea, shape_eq m.wellFormed' liveb, pair.1, pair.2]
      simp only [NodeData.entries_of_attribute kinda, NodeData.entries_of_attribute kindb,
        List.map_nil]

/-- A node with a twin lies below the section. -/
lemma below (h : Twins conf conf' top top' x y) : conf.Below top x := by
  induction h with
  | top => exact .self
  | entry _ live _ ha _ ih =>
    exact ih.trans (.of_mem_entries m.wellFormed live (List.mem_of_getElem? ha))

section

variable {d e : NodeData} (h : Twins conf conf' top top' x y) (live : conf.live? x = some d)
  (live' : conf'.live? y = some e)

include h live live'

/-- Twins have the same kind and shape. -/
lemma congr : d.kind = e.kind ∧ conf.shape x = conf'.shape y := by
  obtain ⟨d₁, e₁, live₁, live₁', same⟩ := m.same h
  rw [live] at live₁
  rw [live'] at live₁'
  cases live₁
  cases live₁'
  exact same

/-- Twins have one name and one value, and are of one kind. -/
lemma data : d.name = e.name ∧ d.value = e.value ∧ d.kind = e.kind := by
  obtain ⟨kind, shape⟩ := m.congr h live live'
  obtain ⟨name, value, -⟩ := parts_of_shape_eq m.wellFormed m.wellFormed' live live' shape
  exact ⟨name, value, kind⟩

/-- The lists of twins are lists of twins. -/
lemma entries (k : Kind) :
    List.Forall₂ (Twins conf conf' top top') (d.entries k) (e.entries k) := by
  obtain ⟨-, shape⟩ := m.congr h live live'
  obtain ⟨-, -, attributes, children⟩ :=
    parts_of_shape_eq m.wellFormed m.wellFormed' live live' shape
  have length : (d.entries k).length = (e.entries k).length := by
    cases k with
    | sectionKind => simpa using congrArg List.length children
    | attributeKind => simpa using congrArg List.length attributes
  refine List.forall₂_iff_get.2 ⟨length, fun i hi hi' => ?_⟩
  exact .entry h live live' (List.getElem?_eq_getElem hi) (List.getElem?_eq_getElem hi')

/-- The parents of twins are twins, but for those of the two sections. -/
lemma parent : (x = top ∧ y = top') ∨
    ∃ p q, d.parent = some p ∧ e.parent = some q ∧ Twins conf conf' top top' p q := by
  cases h with
  | top => exact .inl ⟨rfl, rfl⟩
  | @entry p q _ _ pd qd k i twins livep liveq ha hb =>
    obtain ⟨d₁, live₁, -, parent⟩ :=
      m.wellFormed.listed p pd k x livep (List.mem_of_getElem? ha)
    obtain ⟨e₁, live₁', -, parent'⟩ :=
      m.wellFormed'.listed q qd k y liveq (List.mem_of_getElem? hb)
    rw [live] at live₁
    rw [live'] at live₁'
    cases live₁
    cases live₁'
    exact .inr ⟨p, q, parent, parent', twins⟩

end

/-- A node has one twin. -/
lemma right_unique {y' : Nat} (h : Twins conf conf' top top' x y)
    (h' : Twins conf conf' top top' x y') : y = y' := by
  -- Nothing that is listed on the way down is the section at the top.
  have listed : ∀ {p q a : Nat} {pd : NodeData} {k : Kind} {i : Nat},
      Twins conf conf' top top' p q → conf.live? p = some pd → (pd.entries k)[i]? = some a →
      a ≠ top := by
    rintro p q _ pd k i twins live ha rfl
    have := (m.below twins).le m.wellFormed
    have := m.wellFormed.lt_of_mem_entries live (List.mem_of_getElem? ha)
    omega
  induction h generalizing y' with
  | top =>
    cases h' with
    | top => rfl
    | entry twins live _ ha _ => exact absurd rfl (listed twins live ha)
  | @entry p q a b pd qd k i twins live live' ha hb ih =>
    cases h' with
    | top => exact absurd rfl (listed twins live ha)
    | @entry p₁ q₁ _ _ pd₁ qd₁ k₁ j twins₁ live₁ live₁' ha₁ hb₁ =>
      obtain ⟨rfl, rfl⟩ := m.wellFormed.entries_unique live (List.mem_of_getElem? ha) live₁
        (List.mem_of_getElem? ha₁)
      obtain rfl := ih twins₁
      rw [live] at live₁
      rw [live'] at live₁'
      cases live₁
      cases live₁'
      obtain rfl : i = j := by
        obtain ⟨hi, -⟩ := List.getElem?_eq_some_iff.1 ha
        exact (List.getElem?_inj hi (m.wellFormed.nodup_entries live k)).1 (ha.trans ha₁.symm)
      rw [hb] at hb₁
      exact Option.some.inj hb₁

/-- No node has two twins, on either side. -/
lemma biUnique : Relator.BiUnique (Twins conf conf' top top') :=
  ⟨fun _ _ _ h h' => m.symm.right_unique h.symm h'.symm, fun _ _ _ h h' => m.right_unique h h'⟩

/-- What lies below the section has a twin. -/
lemma exists_twin (below : conf.Below top x) : ∃ y, Twins conf conf' top top' x y := by
  induction below with
  | self => exact ⟨top', .top⟩
  | @step id p d live hp _ ih =>
    obtain ⟨q, twins⟩ := ih
    obtain ⟨pd, qd, livep, liveq, -⟩ := m.same twins
    obtain ⟨i, hi⟩ := List.mem_iff_getElem?.1 (m.wellFormed.mem_entries live hp livep)
    have beside := rel_getElem? (m.entries twins livep liveq d.kind) i
    rw [hi] at beside
    generalize found : (qd.entries d.kind)[i]? = b at beside
    cases beside with
    | some h => exact ⟨_, h⟩

end Mirror

/-! ## Copies -/

/-- Changes keep the environment and the macros. -/
lemma environment_of_changes (h : ReflTransGen Change conf conf') :
    conf'.environment = conf.environment ∧ conf'.provider = conf.provider := by
  induction h with
  | refl => exact ⟨rfl, rfl⟩
  | tail _ change ih => cases change <;> exact ih

end Configuration

namespace Edit

open ConfTree.Configuration

variable {conf conf' : Configuration} {parent c : Nat}

/-- Where a node was appended, the configuration is open to edits and the parent is a section. -/
lemma of_apply_append {kind : Kind} {name : String} {value : Option String}
    (run : (append kind parent name value).apply conf = (.ok c, conf')) :
    conf.readOnly = false ∧ ∃ pd, conf.live? parent = some pd ∧ pd.kind = .sectionKind := by
  cases passed : (do
      conf.checkWritable
      let name ← requireName name
      let _ ← conf.requireSection parent
      return name : Except ConfigError String) with
  | error e =>
    rw [append, apply_checked_error passed] at run
    cases run
  | ok good =>
    obtain ⟨writable, -, -, parent⟩ := appendable_iff.1 passed
    exact ⟨writable, parent⟩

/-- The copy of a subtree is a section of its shape. -/
lemma shape_copySubtree (wf : conf.WellFormed) {t : Subtree} (named : t.Named)
    (run : (copySubtree parent t).apply conf = (.ok c, conf')) :
    (∃ d, conf'.live? c = some d ∧ d.kind = .sectionKind) ∧ conf'.shape c = t.shape := by
  obtain ⟨id, name, value, attributes, children⟩ := t
  have good : GoodName name := named.1
  rw [copySubtree] at run
  obtain ⟨new, conf₁, added, rest⟩ := of_apply_bind_ok run
  obtain ⟨writable, pd, h, sec⟩ := of_apply_append added
  rw [addSection, apply_append writable h sec good] at added
  cases added
  have step := Confined.addNode .sectionKind value wf h sec good
  have new : (conf.addNode .sectionKind parent name value).live? conf.nodes.size = some _ :=
    live?_addNode_new h
  obtain ⟨conf₂, filled, confined, shape⟩ := copyContent_spec step.wellFormed
    (step.readOnly.trans writable) new (kind_new true _) named
  have whole : (do
      copyAttributes conf.nodes.size attributes
      copySubtrees conf.nodes.size children
      return conf.nodes.size : Edit NodeId) =
      copyContent conf.nodes.size (.mk id name value attributes children) >>= fun _ =>
        pure conf.nodes.size := by
    rw [copyContent, bind_assoc]
    rfl
  rw [whole, apply_bind_ok filled, apply_pure] at rest
  cases rest
  obtain ⟨e, live, kind, -⟩ := confined.kept _ new
  refine ⟨⟨e, live, kind.trans (kind_new true _)⟩, ?_⟩
  rw [shape, shape_addNode_new wf h sec good]
  rfl

end Edit

namespace Configuration

/-- An imported section and its copy mirror each other. -/
lemma mirror_importNode {conf conf' other : Configuration} (wf : conf.WellFormed)
    (wfo : other.WellFormed) {parent node c : Nat} (sec : other.isSection node = true)
    (run : (Edit.importNode parent other node).apply conf = (.ok c, conf')) :
    Mirror other conf' node c := by
  have changes : ReflTransGen Change conf ((Edit.importNode parent other node).apply conf).2 :=
    Edit.Makes.importNode parent other node conf
  rw [run] at changes
  obtain ⟨d, live, kind⟩ := isSection_iff.1 sec
  have copied : (Edit.copySubtree parent (other.subtree node)).apply conf = (.ok c, conf') := by
    rw [← run, Edit.importNode, live]
    dsimp only
    rw [if_pos (NodeData.kind_eq_sectionKind.1 kind)]
  obtain ⟨live', shape⟩ := Edit.shape_copySubtree wf (named_subtree wfo live) copied
  exact ⟨wfo, wf.changes changes, ⟨d, live, kind⟩, live', shape.symm⟩

end Configuration

end ConfTree
