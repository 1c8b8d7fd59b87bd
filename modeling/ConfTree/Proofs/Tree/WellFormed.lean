import ConfTree.Proofs.Text.Blank
import ConfTree.Proofs.Tree.Lookup
import Mathlib.Data.List.Nodup
import Mathlib.Data.List.Perm.Subperm

/-!
# Well-formed configurations

A parent pointer, two lists and a mark store one tree between them. `WellFormed` says that they
agree, and `Below` reads the tree off the parent pointers alone. The two main statements are that
the subtree of a node in preorder is what lies below it (`mem_preorder_iff`), and that nothing lies
below itself (`Below.le`).
-/

namespace ConfTree

namespace Configuration

/-- The parts of the arena agree on one tree. -/
structure WellFormed (conf : Configuration) : Prop where
  /-- The root is a live section without a parent. -/
  root : ∃ d, conf.live? root = some d ∧ d.kind = .sectionKind ∧ d.parent = none
  /-- Any other live node has a live section before it as its parent, which lists it once. -/
  owned : ∀ (id : Nat) d, conf.live? id = some d → id ≠ Configuration.root →
    ∃ (p : Nat) (pd : NodeData), d.parent = some p ∧ p < id ∧ conf.live? p = some pd ∧
      pd.kind = .sectionKind ∧ (pd.entries d.kind).count id = 1
  /-- What a live node lists is live, of the kind of the list, and has the node as its parent. -/
  listed : ∀ p pd k id, conf.live? p = some pd → id ∈ pd.entries k →
    ∃ d, conf.live? id = some d ∧ d.kind = k ∧ d.parent = some p
  /-- The name of a live node is a good one. -/
  named : ∀ id d, conf.live? id = some d → GoodName d.name

/-- The node is `top`, or reaches it from parent to parent. -/
inductive Below (conf : Configuration) (top : Nat) : Nat → Prop where
  | self : Below conf top top
  | step {id p d} :
    conf.live? id = some d →
    d.parent = some p →
    Below conf top p →
    Below conf top id

section

variable {conf : Configuration} (wf : conf.WellFormed)

include wf

/-- A live node with a parent is not the root. -/
lemma WellFormed.ne_root {id p : Nat} {d : NodeData} (h : conf.live? id = some d)
    (hp : d.parent = some p) : id ≠ Configuration.root := by
  rintro rfl
  obtain ⟨r, hr, -, hn⟩ := wf.root
  rw [h] at hr
  cases hr
  rw [hp] at hn
  cases hn

/-- The parent of a live node is a live section before it, and lists the node once. -/
lemma WellFormed.parent {id p : Nat} {d : NodeData} (h : conf.live? id = some d)
    (hp : d.parent = some p) :
    p < id ∧ ∃ pd, conf.live? p = some pd ∧ pd.kind = .sectionKind ∧
      (pd.entries d.kind).count id = 1 := by
  obtain ⟨q, qd, hq, lt, live, sec, once⟩ := wf.owned id d h (wf.ne_root h hp)
  rw [hp] at hq
  cases hq
  exact ⟨lt, qd, live, sec, once⟩

/-- What a live node lists comes after it. -/
lemma WellFormed.lt_of_mem_entries {p id : Nat} {pd : NodeData} {k : Kind}
    (h : conf.live? p = some pd) (hm : id ∈ pd.entries k) : p < id := by
  obtain ⟨d, live, -, hp⟩ := wf.listed p pd k id h hm
  exact (wf.parent live hp).1

/-- A live node lists nothing twice. -/
lemma WellFormed.nodup_entries {p : NodeId} {pd : NodeData} (h : conf.live? p = some pd)
    (k : Kind) : (pd.entries k).Nodup := by
  -- The parent of an entry counts it once, and the parent is the node.
  rw [List.nodup_iff_count_eq_one]
  intro id hm
  obtain ⟨d, live, rfl, hp⟩ := wf.listed p pd k id h hm
  obtain ⟨-, qd, hq, -, once⟩ := wf.parent live hp
  rw [h] at hq
  cases hq
  exact once

/-- A live node is listed by its parent. -/
lemma WellFormed.mem_entries {id p : Nat} {d pd : NodeData} (h : conf.live? id = some d)
    (hp : d.parent = some p) (hpd : conf.live? p = some pd) : id ∈ pd.entries d.kind := by
  obtain ⟨-, qd, hq, -, once⟩ := wf.parent h hp
  rw [hpd] at hq
  cases hq
  exact List.count_pos_iff.1 (by omega)

/-- No node is listed in two ways. -/
lemma WellFormed.entries_unique {p q id : Nat} {pd qd : NodeData} {k l : Kind}
    (hp : conf.live? p = some pd) (hm : id ∈ pd.entries k)
    (hq : conf.live? q = some qd) (hn : id ∈ qd.entries l) : p = q ∧ k = l := by
  obtain ⟨d, live, rfl, h⟩ := wf.listed p pd k id hp hm
  obtain ⟨e, live', rfl, h'⟩ := wf.listed q qd l id hq hn
  rw [live] at live'
  cases live'
  rw [h] at h'
  cases h'
  exact ⟨rfl, rfl⟩

/-- No list of a live node is longer than the arena. -/
lemma WellFormed.length_entries_le {p : NodeId} {pd : NodeData}
    (h : conf.live? p = some pd) (k : Kind) : (pd.entries k).length ≤ conf.nodes.size := by
  have sub : pd.entries k ⊆ List.range conf.nodes.size := by
    intro id hm
    obtain ⟨d, live, -⟩ := wf.listed p pd k id h hm
    exact List.mem_range.2 (lt_size_of_live live)
  have := (List.subperm_of_subset (wf.nodup_entries h k) sub).length_le
  rwa [List.length_range] at this

/-- What lies below a node does not come before it. -/
lemma Below.le {top id : Nat} (h : conf.Below top id) : top ≤ id := by
  induction h with
  | self => exact Nat.le_refl _
  | step live hp _ ih => exact Nat.le_of_lt (Nat.lt_of_le_of_lt ih (wf.parent live hp).1)

end

variable {conf : Configuration}

/-- What is below a node below another one is below this one. -/
lemma Below.trans {a b c : Nat} (h : conf.Below a b) (k : conf.Below b c) : conf.Below a c := by
  induction k with
  | self => exact h
  | step live hp _ ih => exact .step live hp ih

/-- What a live node lists lies below it. -/
lemma Below.of_mem_entries (wf : conf.WellFormed) {p id : Nat} {pd : NodeData} {k : Kind}
    (h : conf.live? p = some pd) (hm : id ∈ pd.entries k) : conf.Below p id := by
  obtain ⟨d, live, -, hp⟩ := wf.listed p pd k id h hm
  exact .step live hp .self

/-- What lies below a node is the node, or lies below one of its entries. -/
lemma Below.cases_top (wf : conf.WellFormed) {top id : Nat} (h : conf.Below top id) :
    id = top ∨ ∃ d k c, conf.live? top = some d ∧ c ∈ d.entries k ∧ conf.Below c id := by
  induction h with
  | self => exact .inl rfl
  | @step id p d live hp _ ih =>
    right
    -- The entry below `top` is the node itself, or the one that its parent has on its way up.
    rcases ih with rfl | ⟨e, k, c, he, hc, hb⟩
    · obtain ⟨-, pd, hpd, -⟩ := wf.parent live hp
      exact ⟨pd, d.kind, id, hpd, wf.mem_entries live hp hpd, .self⟩
    · exact ⟨e, k, c, he, hc, .step live hp hb⟩

/-- What lies below a live node is live. -/
lemma Below.live {top id : Nat} {d : NodeData} (h : conf.Below top id)
    (ht : conf.live? top = some d) : ∃ e, conf.live? id = some e := by
  cases h with
  | self => exact ⟨d, ht⟩
  | step live _ _ => exact ⟨_, live⟩

/-- What lies above a live node is live. -/
lemma Below.live_top (wf : conf.WellFormed) {top id : Nat} {d : NodeData} (h : conf.Below top id)
    (live : conf.live? id = some d) : ∃ e, conf.live? top = some e := by
  induction h generalizing d with
  | self => exact ⟨d, live⟩
  | step live' hp _ ih =>
    obtain ⟨-, pd, hpd, -⟩ := wf.parent live' hp
    exact ih hpd

/-- Every live node lies below the root. -/
lemma WellFormed.below_root (wf : conf.WellFormed) {id : Nat} {d : NodeData}
    (h : conf.live? id = some d) : conf.Below Configuration.root id := by
  -- Parents come before their entries.
  induction id using Nat.strongRecOn generalizing d with
  | ind id ih =>
    by_cases top : id = Configuration.root
    · rw [top]
      exact .self
    · obtain ⟨p, pd, parent, lt, live, -⟩ := wf.owned id d h top
      exact .step h parent (ih p lt live)

/-- What lies below a node is the node, or its parent lies below it. -/
lemma Below.parent {top id p : Nat} {d : NodeData} (h : conf.Below top id)
    (live : conf.live? id = some d) (hp : d.parent = some p) : id = top ∨ conf.Below top p := by
  cases h with
  | self => exact .inl rfl
  | step live' hp' below =>
    rw [live] at live'
    cases live'
    rw [hp] at hp'
    cases hp'
    exact .inr below

/-- The attributes and the children of a live node are its entries of both kinds. -/
lemma mem_attributesOf_append {id c : Nat} {d : NodeData} (h : conf.live? id = some d) :
    c ∈ conf.attributesOf id ++ conf.childrenOf id ↔ ∃ k, c ∈ d.entries k := by
  rw [attributesOf_eq h, childrenOf_eq h, List.mem_append]
  constructor
  · rintro (hc | hc)
    · exact ⟨_, hc⟩
    · exact ⟨_, hc⟩
  · rintro ⟨k, hc⟩
    cases k with
    | sectionKind => exact .inr hc
    | attributeKind => exact .inl hc

/-- What is listed in preorder, to whatever depth, lies below the node. -/
lemma Below.of_mem_preorderWithin (wf : conf.WellFormed) {n id x : Nat} {d : NodeData}
    (hid : conf.live? id = some d) (h : x ∈ conf.preorderWithin n id) : conf.Below id x := by
  induction n generalizing id d with
  | zero => cases h
  | succ n ih =>
    rw [preorderWithin, List.mem_cons, List.mem_flatMap] at h
    rcases h with rfl | ⟨c, hc, hx⟩
    · exact .self
    · obtain ⟨k, hk⟩ := (mem_attributesOf_append hid).1 hc
      obtain ⟨e, live, -, -⟩ := wf.listed id d k c hid hk
      exact (Below.of_mem_entries wf hid hk).trans (ih live hx)

/-- What lies below a node is listed in preorder, if the depth allows for the rest of the arena. -/
lemma Below.mem_preorderWithin (wf : conf.WellFormed) {n id x : Nat} {d : NodeData}
    (hid : conf.live? id = some d) (hn : conf.nodes.size ≤ n + id) (h : conf.Below id x) :
    x ∈ conf.preorderWithin n id := by
  -- Each level down comes at least one place nearer to the end of the arena.
  induction n generalizing id d with
  | zero =>
    have := lt_size_of_live hid
    omega
  | succ n ih =>
    rw [preorderWithin, List.mem_cons, List.mem_flatMap]
    rcases h.cases_top wf with rfl | ⟨e, k, c, he, hc, hb⟩
    · exact .inl rfl
    · right
      obtain ⟨cd, live, -, -⟩ := wf.listed id e k c he hc
      have lt := wf.lt_of_mem_entries he hc
      exact ⟨c, (mem_attributesOf_append he).2 ⟨k, hc⟩, ih live (by omega) hb⟩

/-- The preorder of a live node lists what lies below it. -/
lemma mem_preorder_iff (wf : conf.WellFormed) {id x : Nat} {d : NodeData}
    (hid : conf.live? id = some d) : x ∈ conf.preorder id ↔ conf.Below id x :=
  ⟨.of_mem_preorderWithin wf hid, Below.mem_preorderWithin wf hid (by omega)⟩

/-- The preorder of a live node without its head lists what lies properly below it. -/
lemma mem_drop_preorder_iff (wf : conf.WellFormed) {id x : Nat} {d : NodeData}
    (hid : conf.live? id = some d) :
    x ∈ (conf.preorder id).drop 1 ↔ conf.Below id x ∧ x ≠ id := by
  rw [← mem_preorder_iff wf hid, preorder]
  cases hs : conf.nodes.size with
  | zero =>
    have := lt_size_of_live hid
    omega
  | succ n =>
    rw [preorderWithin, List.drop_one, List.tail_cons, List.mem_cons]
    constructor
    · intro hx
      refine ⟨.inr hx, ?_⟩
      -- What lies below an entry comes after the node.
      obtain ⟨c, hc, hx⟩ := List.mem_flatMap.1 hx
      obtain ⟨k, hk⟩ := (mem_attributesOf_append hid).1 hc
      obtain ⟨e, live, -, -⟩ := wf.listed id d k c hid hk
      have lt := wf.lt_of_mem_entries hid hk
      have le := (Below.of_mem_preorderWithin wf live hx).le wf
      exact Nat.ne_of_gt (Nat.lt_of_lt_of_le lt le)
    · rintro ⟨rfl | hx, hne⟩
      · exact absurd rfl hne
      · exact hx

end Configuration

end ConfTree
