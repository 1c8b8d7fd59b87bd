import ConfTree.Proofs.Tree.Change

/-!
# What changes preserve

A change keeps a configuration well-formed (`WellFormed.change`) and lets every index denote the
node that it denoted before (`Evolves.change`). The changes that add no node are alike: some nodes
are buried, and the others keep everything but their name, their value and the buried entries of
their lists. What is said of them is said once, in `WellFormed.of_pruned`.
-/

namespace ConfTree

namespace Configuration

/-- An index of the first configuration denotes the same node in the second: one of the same kind,
with the same parent as long as it is live, and dead if it was dead. -/
def Evolves (before after : Configuration) : Prop :=
  ∀ (id : Nat) (d : NodeData), before.nodes[id]? = some d →
    ∃ e : NodeData, after.nodes[id]? = some e ∧ e.kind = d.kind ∧
      (d.deleted = true → e.deleted = true) ∧ (e.deleted = false → e.parent = d.parent)

variable {conf conf' : Configuration}

/-- To stay is a way to evolve. -/
lemma Evolves.refl (conf : Configuration) : conf.Evolves conf :=
  fun _ d h => ⟨d, h, rfl, id, fun _ => rfl⟩

/-- Ways to evolve follow one another. -/
lemma Evolves.trans {a b c : Configuration} (h : a.Evolves b) (k : b.Evolves c) : a.Evolves c := by
  intro id d hd
  obtain ⟨e, he, kind, dead, parent⟩ := h id d hd
  obtain ⟨f, hf, kind', dead', parent'⟩ := k id e he
  refine ⟨f, hf, kind'.trans kind, fun h => dead' (dead h), fun live => ?_⟩
  -- What is live in the end was live in between.
  have alive : e.deleted = false := by
    cases hx : e.deleted with
    | false => rfl
    | true =>
      rw [dead' hx] at live
      cases live
  exact (parent' live).trans (parent alive)

/-- A configuration evolves to one in which each node was changed in place, if no change revives a
node or moves a live one. -/
lemma Evolves.of_map {f : Nat → NodeData → NodeData}
    (hnodes : ∀ n, conf'.nodes[n]? = conf.nodes[n]?.map (f n))
    (hkind : ∀ n d, (f n d).kind = d.kind)
    (hdead : ∀ n d, d.deleted = true → (f n d).deleted = true)
    (hparent : ∀ n d, (f n d).deleted = false → (f n d).parent = d.parent) :
    conf.Evolves conf' := by
  intro id d hd
  refine ⟨f id d, ?_, hkind id d, hdead id d, hparent id d⟩
  rw [hnodes, hd, Option.map_some]

/-! ## Changes that add no node -/

/-- A configuration stays well-formed when whole subtrees are buried and the remaining nodes lose
exactly the buried entries. -/
lemma WellFormed.of_pruned (wf : conf.WellFormed) {B : Nat → Prop}
    {f : Nat → NodeData → NodeData}
    (hroot : ¬ B Configuration.root)
    (hdown : ∀ n d p, conf.live? n = some d → d.parent = some p → B p → B n)
    (hdead : ∀ n, B n → conf'.live? n = none)
    (hlive : ∀ n, ¬ B n → conf'.live? n = (conf.live? n).map (f n))
    (hkind : ∀ n d, (f n d).kind = d.kind)
    (hparent : ∀ n d, (f n d).parent = d.parent)
    (hname : ∀ n d, conf.live? n = some d → GoodName (f n d).name)
    (hkeep : ∀ n d k c, conf.live? n = some d → ¬ B c →
      ((f n d).entries k).count c = (d.entries k).count c)
    (hdrop : ∀ n d k c, conf.live? n = some d → ¬ B n → B c → c ∉ (f n d).entries k) :
    conf'.WellFormed := by
  have survive : ∀ n d, ¬ B n → conf.live? n = some d → conf'.live? n = some (f n d) := by
    intro n d hn hd
    rw [hlive n hn, hd, Option.map_some]
  -- All that is live now was live, and is not buried.
  have origin : ∀ n e, conf'.live? n = some e →
      ¬ B n ∧ ∃ d, conf.live? n = some d ∧ f n d = e := by
    intro n e he
    by_cases hn : B n
    · rw [hdead n hn] at he
      cases he
    · rw [hlive n hn, Option.map_eq_some_iff] at he
      exact ⟨hn, he⟩
  constructor
  case root =>
    obtain ⟨d, hd, kind, parent⟩ := wf.root
    exact ⟨_, survive _ d hroot hd, (hkind _ d).trans kind, (hparent _ d).trans parent⟩
  case owned =>
    intro id e he hne
    obtain ⟨hid, d, hd, rfl⟩ := origin id e he
    obtain ⟨p, pd, parent, lt, live, sec, once⟩ := wf.owned id d hd hne
    -- With the parent, the node would be buried.
    have hp : ¬ B p := fun hp => hid (hdown id d p hd parent hp)
    refine ⟨p, f p pd, (hparent id d).trans parent, lt, survive p pd hp live,
      (hkind p pd).trans sec, ?_⟩
    rw [hkind, hkeep p pd d.kind id live hid, once]
  case listed =>
    intro p e k id he hm
    obtain ⟨hp, pd, hpd, rfl⟩ := origin p e he
    -- The entry is not among those that were lost.
    have hid : ¬ B id := fun hid => hdrop p pd k id hpd hp hid hm
    have hm : id ∈ pd.entries k := by
      rw [← List.count_pos_iff, ← hkeep p pd k id hpd hid, List.count_pos_iff]
      exact hm
    obtain ⟨d, hd, kind, parent⟩ := wf.listed p pd k id hpd hm
    exact ⟨_, survive id d hid hd, (hkind id d).trans kind, (hparent id d).trans parent⟩
  case named =>
    intro id e he
    obtain ⟨-, d, hd, rfl⟩ := origin id e he
    exact hname id d hd

/-- A configuration stays well-formed when its nodes change their flags, their values, and their
names to good names. -/
lemma WellFormed.of_retouched (wf : conf.WellFormed) {f : Nat → NodeData → NodeData}
    (hlive : ∀ n, conf'.live? n = (conf.live? n).map (f n))
    (hkind : ∀ n d, (f n d).kind = d.kind)
    (hparent : ∀ n d, (f n d).parent = d.parent)
    (hname : ∀ n d, conf.live? n = some d → GoodName (f n d).name)
    (hentries : ∀ n d k, (f n d).entries k = d.entries k) : conf'.WellFormed := by
  refine wf.of_pruned (B := fun _ => False) id (fun _ _ _ _ _ h => h) (fun _ h => h.elim)
    (fun n _ => hlive n) hkind hparent hname ?_ (fun _ _ _ _ _ _ h => h.elim)
  intro n d k c _ _
  rw [hentries]

section

variable (wf : conf.WellFormed)

include wf

/-- A configuration stays well-formed when one of its nodes changes in this way. -/
lemma WellFormed.modifyNode (id : Nat) {f : NodeData → NodeData}
    (hdead : ∀ d, (f d).deleted = d.deleted)
    (hkind : ∀ d, (f d).kind = d.kind)
    (hparent : ∀ d, (f d).parent = d.parent)
    (hname : ∀ d, GoodName d.name → GoodName (f d).name)
    (hentries : ∀ d k, (f d).entries k = d.entries k) : (conf.modifyNode id f).WellFormed := by
  refine wf.of_retouched (f := fun n d => if id = n then f d else d) ?_ ?_ ?_ ?_ ?_
  · intro n
    rw [live?_modifyNode hdead]
    split <;> simp
  · intro n d
    split
    · exact hkind d
    · rfl
  · intro n d
    split
    · exact hparent d
    · rfl
  · intro n d h
    split
    · exact hname d (wf.named n d h)
    · exact wf.named n d h
  · intro n d k
    split
    · exact hentries d k
    · rfl

/-- Setting a value keeps a configuration well-formed. -/
lemma WellFormed.replaceValue (id : Nat) (value : Option String) :
    (conf.replaceValue id value).WellFormed := by
  refine wf.modifyNode id (fun _ => rfl) (fun _ => rfl) (fun _ => rfl) (fun _ h => h) ?_
  intro d k
  cases k <;> rfl

/-- Giving a node a good name keeps a configuration well-formed. -/
lemma WellFormed.replaceName (id : Nat) {name : String} (hn : GoodName name) :
    (conf.replaceName id name).WellFormed := by
  refine wf.modifyNode id (fun _ => rfl) (fun _ => rfl) (fun _ => rfl) (fun _ _ => hn) ?_
  intro d k
  cases k <;> rfl

/-- The live nodes after a node was removed: what lies below it is dead, and its parent has lost
it. -/
lemma WellFormed.live?_removeNode {id parent : Nat} {d : NodeData} (hd : conf.live? id = some d)
    (n : Nat) :
    (conf.Below id n → (conf.removeNode parent id).live? n = none) ∧
      (¬ conf.Below id n → (conf.removeNode parent id).live? n = (conf.live? n).map fun d =>
        if parent = n then { d with content := d.content.erase id, modified := true } else d) := by
  rw [removeNode, live?_markDeleted]
  constructor
  · intro h
    rw [if_pos ((mem_preorder_iff wf hd).2 h)]
  · intro h
    rw [if_neg (fun hm => h ((mem_preorder_iff wf hd).1 hm)), live?_modifyNode]
    · split <;> simp
    · exact fun _ => rfl

/-- Removing a node keeps a configuration well-formed. -/
lemma WellFormed.removeNode {id parent : Nat} {d : NodeData} (hd : conf.live? id = some d)
    (hp : d.parent = some parent) : (conf.removeNode parent id).WellFormed := by
  have hlt := (wf.parent hd hp).1
  refine wf.of_pruned (B := conf.Below id)
    (f := fun n d =>
      if parent = n then { d with content := d.content.erase id, modified := true } else d)
    ?_ ?_ ?_ ?_ ?_ ?_ ?_ ?_ ?_
  · intro h
    have := h.le wf
    rw [Configuration.root] at this
    omega
  · intro n e p he hep hb
    exact .step he hep hb
  · exact fun n => (wf.live?_removeNode hd n).1
  · exact fun n => (wf.live?_removeNode hd n).2
  · intro n e
    split <;> simp
  · intro n e
    split <;> rfl
  · intro n e he
    split <;> exact wf.named n e he
  · intro n e k c _ hc
    have hne : c ≠ id := by
      rintro rfl
      exact hc .self
    split
    · rw [NodeData.entries_erase, List.count_filter (by simpa using hne)]
    · rfl
  · -- A buried entry of a node that stays is `id` itself, and the node is its parent.
    intro n e k c he hn hc hm
    have hown : parent = n ∧ c = id := by
      have hce : c ∈ e.entries k := by
        split at hm
        · rw [NodeData.entries_erase] at hm
          exact List.mem_of_mem_filter hm
        · exact hm
      obtain ⟨x, hx, -, hxp⟩ := wf.listed n e k c he hce
      rcases hc.parent hx hxp with rfl | hb
      · rw [hd] at hx
        cases hx
        rw [hp] at hxp
        cases hxp
        exact ⟨rfl, rfl⟩
      · exact absurd hb hn
    rw [if_pos hown.1, NodeData.entries_erase] at hm
    simp [hown.2] at hm

/-- The live nodes after a section was emptied: what lies properly below it is dead, and its lists
are empty. -/
lemma WellFormed.live?_emptyNode {id : Nat} {d : NodeData} (hd : conf.live? id = some d) (n : Nat) :
    (conf.Below id n ∧ n ≠ id → (conf.emptyNode id).live? n = none) ∧
      (¬ (conf.Below id n ∧ n ≠ id) → (conf.emptyNode id).live? n = (conf.live? n).map fun d =>
        if id = n then { d with content := d.content.cleared, modified := true } else d) := by
  rw [emptyNode, live?_modifyNode, live?_markDeleted]
  · constructor
    · intro h
      rw [if_pos ((mem_drop_preorder_iff wf hd).2 h), if_neg (fun e => h.2 e.symm)]
    · intro h
      rw [if_neg (fun hm => h ((mem_drop_preorder_iff wf hd).1 hm))]
      split <;> simp
  · exact fun _ => rfl

/-- Emptying a section keeps a configuration well-formed. -/
lemma WellFormed.emptyNode {id : Nat} {d : NodeData} (hd : conf.live? id = some d) :
    (conf.emptyNode id).WellFormed := by
  refine wf.of_pruned (B := fun n => conf.Below id n ∧ n ≠ id)
    (f := fun n d =>
      if id = n then { d with content := d.content.cleared, modified := true } else d)
    ?_ ?_ ?_ ?_ ?_ ?_ ?_ ?_ ?_
  · rintro ⟨h, hne⟩
    have := h.le wf
    rw [Configuration.root] at this hne
    omega
  · rintro n e p he hep ⟨hb, -⟩
    refine ⟨.step he hep hb, ?_⟩
    have := hb.le wf
    have := (wf.parent he hep).1
    omega
  · exact fun n => (wf.live?_emptyNode hd n).1
  · exact fun n => (wf.live?_emptyNode hd n).2
  · intro n e
    split <;> simp
  · intro n e
    split <;> rfl
  · intro n e he
    split <;> exact wf.named n e he
  · -- An entry of the emptied section is buried.
    intro n e k c he hc
    split
    · rename_i h
      subst h
      rw [NodeData.entries_cleared, List.count_nil, eq_comm, List.count_eq_zero]
      intro hm
      have := wf.lt_of_mem_entries he hm
      exact hc ⟨.of_mem_entries wf he hm, by omega⟩
    · rfl
  · -- A node that stays and has a buried entry is the emptied section.
    rintro n e k c he hn ⟨hc, hne⟩ hm
    split at hm
    · rw [NodeData.entries_cleared] at hm
      cases hm
    · rename_i hid
      obtain ⟨x, hx, -, hxp⟩ := wf.listed n e k c he hm
      have hb := (hc.parent hx hxp).resolve_left hne
      exact hn ⟨hb, fun h => hid h.symm⟩

end

/-! ## A new node -/

section

variable {kind : Kind} {parent : Nat} {pd : NodeData} {name : String} {value : Option String}

/-- A new node is of its kind. -/
lemma kind_new (b : Bool) (p : Option NodeId) :
    (⟨name, value, p, kind.freshContent, b, false⟩ : NodeData).kind = kind := by
  cases kind <;> rfl

/-- A new node has no entries. -/
lemma entries_new (b : Bool) (p : Option NodeId) (k : Kind) :
    (⟨name, value, p, kind.freshContent, b, false⟩ : NodeData).entries k = [] := by
  cases kind <;> cases k <;> rfl

/-- The new node stands at the end of the arena. -/
lemma live?_addNode_new (h : conf.live? parent = some pd) :
    (conf.addNode kind parent name value).live? conf.nodes.size =
      some ⟨name, value, some parent, kind.freshContent, true, false⟩ := by
  rw [live?_addNode (lt_size_of_live h), if_pos rfl]

/-- The parent of the new node lists it last. -/
lemma live?_addNode_parent (h : conf.live? parent = some pd) :
    (conf.addNode kind parent name value).live? parent =
      some { pd with content := pd.content.push kind conf.nodes.size, modified := true } := by
  have hlt := lt_size_of_live h
  rw [live?_addNode hlt, if_neg (by omega), if_pos rfl, h, Option.map_some]

/-- All other nodes stay as they are. -/
lemma live?_addNode_of_ne (h : conf.live? parent = some pd) {n : Nat}
    (hn : n ≠ conf.nodes.size) (hp : n ≠ parent) :
    (conf.addNode kind parent name value).live? n = conf.live? n := by
  rw [live?_addNode (lt_size_of_live h), if_neg hn, if_neg hp]

/-- A node that was live before a node was added keeps all but the new entry of the parent. -/
lemma live?_addNode_old (h : conf.live? parent = some pd) (sec : pd.kind = .sectionKind) {n : Nat}
    {d : NodeData} (hd : conf.live? n = some d) :
    ∃ e : NodeData, (conf.addNode kind parent name value).live? n = some e ∧ e.kind = d.kind ∧
      e.parent = d.parent ∧ e.name = d.name ∧ ∀ k, e.entries k =
        if n = parent ∧ k = kind then d.entries k ++ [conf.nodes.size] else d.entries k := by
  have hlt := lt_size_of_live hd
  by_cases hn : n = parent
  · subst hn
    rw [h] at hd
    cases hd
    refine ⟨_, live?_addNode_parent h, NodeData.kind_push true, rfl, rfl, fun k => ?_⟩
    rw [NodeData.entries_push sec]
    simp
  · refine ⟨d, ?_, rfl, rfl, rfl, fun k => ?_⟩
    · rw [live?_addNode_of_ne h (by omega) hn, hd]
    · rw [if_neg fun h => hn h.1]

/-- A node that is added leaves the names of the old ones. -/
lemma nameOf_addNode_old (h : conf.live? parent = some pd) (sec : pd.kind = .sectionKind) {n : Nat}
    {d : NodeData} (hd : conf.live? n = some d) :
    (conf.addNode kind parent name value).nameOf n = conf.nameOf n := by
  obtain ⟨e, live, -, -, same, -⟩ : ∃ e : NodeData,
    (conf.addNode kind parent name value).live? n = some e ∧ _ := live?_addNode_old h sec hd
  rw [nameOf_eq live, nameOf_eq hd, same]

/-- A new node has its name. -/
lemma nameOf_addNode_new (h : conf.live? parent = some pd) :
    (conf.addNode kind parent name value).nameOf conf.nodes.size = name := by
  rw [nameOf, live?_addNode_new h]
  rfl

/-- What a node lists without the new one keeps its names. -/
lemma map_nameOf_addNode (wf : conf.WellFormed) (h : conf.live? parent = some pd)
    (sec : pd.kind = .sectionKind) {n : Nat} {d : NodeData} (hd : conf.live? n = some d)
    (k : Kind) : (d.entries k).map (conf.addNode kind parent name value).nameOf =
      (d.entries k).map conf.nameOf := by
  refine List.map_congr_left fun a ha => ?_
  obtain ⟨e, he, -⟩ := wf.listed n d k a hd ha
  exact nameOf_addNode_old h sec he

/-- A node that is added leaves all values. -/
lemma verbatim?_addNode (h : conf.live? parent = some pd) {n : Nat} {d : NodeData}
    (hd : conf.live? n = some d) :
    (conf.addNode kind parent name value).verbatim? n = conf.verbatim? n := by
  have old := lt_size_of_live hd
  rw [verbatim?, verbatim?, live?_addNode (lt_size_of_live h), if_neg (by omega)]
  split
  · cases conf.live? n <;> rfl
  · rfl

/-- A live node is new, or was live before. -/
lemma live?_addNode_cases (h : conf.live? parent = some pd) {n : Nat} {e : NodeData}
    (he : (conf.addNode kind parent name value).live? n = some e) :
    n = conf.nodes.size ∨ ∃ d, conf.live? n = some d := by
  by_cases hn : n = conf.nodes.size
  · exact .inl hn
  · right
    by_cases hp : n = parent
    · subst hp
      exact ⟨pd, h⟩
    · rw [live?_addNode_of_ne h hn hp] at he
      exact ⟨e, he⟩

/-- A live node is the new one, or an old one that has kept all but the new entry of the parent. -/
lemma of_live?_addNode (h : conf.live? parent = some pd) (sec : pd.kind = .sectionKind) {n : Nat}
    {e : NodeData} (he : (conf.addNode kind parent name value).live? n = some e) :
    (n = conf.nodes.size ∧ e = ⟨name, value, some parent, kind.freshContent, true, false⟩) ∨
      ∃ d, conf.live? n = some d ∧ e.kind = d.kind ∧ e.parent = d.parent ∧ e.name = d.name ∧
        e.value = d.value ∧ ∀ k, e.entries k =
          if n = parent ∧ k = kind then d.entries k ++ [conf.nodes.size] else d.entries k := by
  rcases live?_addNode_cases h he with rfl | ⟨d, hd⟩
  · rw [live?_addNode_new h] at he
    exact .inl ⟨rfl, (Option.some.inj he).symm⟩
  · obtain ⟨f, hf, same, parent', named, entries⟩ := live?_addNode_old h sec hd
    have kept : (conf.addNode kind parent name value).verbatim? n = conf.verbatim? n :=
      verbatim?_addNode h hd
    rw [verbatim?_eq hf, verbatim?_eq hd] at kept
    rw [he] at hf
    cases hf
    exact .inr ⟨d, hd, same, parent', named, kept, entries⟩

/-- Adding a node keeps a configuration well-formed. -/
lemma WellFormed.addNode (wf : conf.WellFormed) (h : conf.live? parent = some pd)
    (sec : pd.kind = .sectionKind) (hname : GoodName name) :
    (conf.addNode kind parent name value).WellFormed := by
  have new : (conf.addNode kind parent name value).live? conf.nodes.size =
      some ⟨name, value, some parent, kind.freshContent, true, false⟩ := live?_addNode_new h
  constructor
  case root =>
    obtain ⟨d, hd, hk, hp⟩ := wf.root
    obtain ⟨e, he, kind', parent', -, -⟩ := live?_addNode_old h sec hd
    exact ⟨e, he, kind'.trans hk, parent'.trans hp⟩
  case owned =>
    intro id e he hne
    rcases of_live?_addNode h sec he with ⟨rfl, rfl⟩ | ⟨d, hd, kind', parent', -⟩
    · obtain ⟨e, he, kind', -, -, entries⟩ := live?_addNode_old h sec h
      refine ⟨parent, e, rfl, lt_size_of_live h, he, kind'.trans sec, ?_⟩
      -- The index of the new node is behind all that the parent listed.
      have fresh : conf.nodes.size ∉ pd.entries kind := by
        intro hm
        obtain ⟨x, hx, -⟩ := wf.listed parent pd kind _ h hm
        exact Nat.lt_irrefl _ (lt_size_of_live hx)
      rw [kind_new, entries, if_pos ⟨rfl, rfl⟩, List.count_append, List.count_eq_zero.2 fresh]
      simp
    · obtain ⟨p, qd, hp, lt, live, sec', once⟩ := wf.owned id d hd hne
      obtain ⟨q, hq, kind'', -, -, entries⟩ := live?_addNode_old h sec live
      refine ⟨p, q, parent'.trans hp, lt, hq, kind''.trans sec', ?_⟩
      have hlt := lt_size_of_live hd
      rw [kind', entries]
      split
      · have : id ∉ [conf.nodes.size] := by simp; omega
        rw [List.count_append, once, List.count_eq_zero.2 this]
      · exact once
  case listed =>
    intro p e k id he hm
    rcases of_live?_addNode h sec he with ⟨-, rfl⟩ | ⟨pd', hpd, -, -, -, -, entries⟩
    · rw [entries_new] at hm
      cases hm
    · have old : id ∈ pd'.entries k → ∃ d, (conf.addNode kind parent name value).live? id = some d ∧
          d.kind = k ∧ d.parent = some p := by
        intro hm
        obtain ⟨d, hd, hk, hp⟩ := wf.listed p pd' k id hpd hm
        obtain ⟨g, hg, kind', parent', -, -⟩ := live?_addNode_old h sec hd
        exact ⟨g, hg, kind'.trans hk, parent'.trans hp⟩
      -- Only the parent has another entry than before, and this is the new node.
      rw [entries] at hm
      split at hm
      · rename_i hpk
        obtain ⟨rfl, rfl⟩ := hpk
        rcases List.mem_append.1 hm with hm | hm
        · exact old hm
        · obtain rfl := List.mem_singleton.1 hm
          exact ⟨_, new, kind_new true _, rfl⟩
      · exact old hm
  case named =>
    intro id e he
    rcases of_live?_addNode h sec he with ⟨-, rfl⟩ | ⟨d, hd, -, -, name', -⟩
    · exact hname
    · rw [name']
      exact wf.named id d hd

end

/-! ## All changes -/

/-- A change keeps a configuration well-formed. -/
lemma WellFormed.change (wf : conf.WellFormed) (h : conf.Change conf') : conf'.WellFormed := by
  cases h with
  | add _ hp sec hn => exact wf.addNode hp sec hn
  | setValue _ _ => exact wf.replaceValue _ _
  | rename _ _ hn => exact wf.replaceName _ hn
  | remove _ hd hp _ => exact wf.removeNode hd hp
  | empty _ hd _ => exact wf.emptyNode hd

/-- A change of one node that keeps its kind, its parent and its mark moves no node. -/
lemma Evolves.modifyNode (id : NodeId) {f : NodeData → NodeData} (hkind : ∀ d, (f d).kind = d.kind)
    (hdead : ∀ d, (f d).deleted = d.deleted) (hparent : ∀ d, (f d).parent = d.parent) :
    conf.Evolves (conf.modifyNode id f) := by
  refine .of_map (f := fun n d => if id = n then f d else d) ?_ ?_ ?_ ?_
  · intro n
    rw [nodes_modifyNode]
    split <;> simp
  · intro n d
    split
    · exact hkind d
    · rfl
  · intro n d h
    split
    · rw [hdead, h]
    · exact h
  · intro n d _
    split
    · exact hparent d
    · rfl

/-- Marking nodes as deleted moves none. -/
lemma Evolves.markDeleted (ids : List NodeId) : conf.Evolves (conf.markDeleted ids) := by
  refine .of_map (f := fun n d => if n ∈ ids then d.buried else d) ?_ ?_ ?_ ?_
  · intro n
    rw [nodes_markDeleted]
    split <;> simp
  · intro n d
    split <;> rfl
  · intro n d h
    split
    · rfl
    · exact h
  · intro n d
    split
    · exact fun h => absurd h (by simp [NodeData.buried])
    · exact fun _ => rfl

/-- A change lets every index denote the node that it denoted before. -/
lemma Evolves.change (h : conf.Change conf') : conf.Evolves conf' := by
  cases h with
  | @add kind parent pd name value _ hp _ _ =>
    -- The push leaves the old arena as it is, and the parent keeps its kind.
    have push : conf.Evolves { conf with
        nodes := conf.nodes.push ⟨name, value, some parent, kind.freshContent, true, false⟩ } := by
      intro id d hd
      refine ⟨d, ?_, rfl, fun h => h, fun _ => rfl⟩
      have hlt := (Array.getElem?_eq_some_iff.1 hd).1
      rw [Array.getElem?_push, if_neg (Nat.ne_of_lt hlt), hd]
    exact push.trans (.modifyNode _ (fun d => NodeData.kind_push true) (fun _ => rfl) fun _ => rfl)
  | setValue _ _ => exact .modifyNode _ (fun _ => rfl) (fun _ => rfl) fun _ => rfl
  | rename _ _ _ => exact .modifyNode _ (fun _ => rfl) (fun _ => rfl) fun _ => rfl
  | remove _ _ _ _ =>
    exact (Evolves.modifyNode _ (fun d => NodeData.kind_erase true) (fun _ => rfl)
      fun _ => rfl).trans (.markDeleted _)
  | empty _ _ _ =>
    exact (Evolves.markDeleted _).trans
      (.modifyNode _ (fun d => NodeData.kind_cleared true) (fun _ => rfl) fun _ => rfl)

/-- Changes keep a configuration well formed. -/
lemma WellFormed.changes (wf : conf.WellFormed) (h : Relation.ReflTransGen Change conf conf') :
    conf'.WellFormed := by
  induction h with
  | refl => exact wf
  | tail _ last ih => exact ih.change last

/-- A sequence of changes lets every index denote the node that it denoted before. -/
lemma Evolves.changes (h : Relation.ReflTransGen Change conf conf') : conf.Evolves conf' := by
  induction h with
  | refl => exact .refl conf
  | tail _ last ih => exact ih.trans (.change last)

end Configuration

end ConfTree
