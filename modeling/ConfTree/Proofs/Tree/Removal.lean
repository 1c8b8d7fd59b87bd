import ConfTree.Proofs.Operation.Reachable
import ConfTree.Proofs.Tree.Copy

/-!
# Removals

To delete a node and to clear a section is to take entries out of the lists of one section, and to
mark as dead what lies below them. Which nodes these are, the lists say that are followed from the
removed entries down; in a well-formed configuration they are the nodes whose parent pointers lead
up to a removed entry. All other nodes stay as they are (`Uprooted`). A worklist that follows the
lists while it marks them comes to the same end (`sweeps_exact`). The main statement is
`deletions_exact`.
-/

namespace ConfTree

namespace Configuration

/-- The node lies below one of the given ones. -/
def BelowSome (conf : Configuration) (tops : List Nat) (id : Nat) : Prop :=
  ∃ c ∈ tops, conf.Below c id

/-- Entries of a section were taken out with all below them, and nothing else was done. -/
structure Uprooted (conf : Configuration) (host : Nat) (removed : List Nat)
    (after : Configuration) : Prop where
  wellFormed : after.WellFormed
  /-- Nothing but the arena is different, and no index is given up. -/
  settings : { after with nodes := conf.nodes } = conf
  size : after.nodes.size = conf.nodes.size
  /-- Of the live nodes those die that lie below a removed one. -/
  died : ∀ id d, conf.live? id = some d →
    (after.live? id = none ↔ conf.BelowSome removed id)
  /-- The section has lost the removed entries, and is flagged. -/
  shrunk : ∃ d content, conf.live? host = some d ∧
    after.live? host = some { d with content := content, modified := true } ∧
    ({ d with content := content } : NodeData).kind = d.kind ∧
    ∀ k, ({ d with content := content } : NodeData).entries k =
      (d.entries k).filter (· ∉ removed)
  /-- All else is as it was, what was dead before as well. -/
  others : ∀ id ≠ host, ¬ conf.BelowSome removed id → after.nodes[id]? = conf.nodes[id]?

variable {conf after : Configuration} {host : Nat} {d : NodeData}

/-- What lies below an entry of a node is not the node. -/
lemma not_belowSome_self (wf : conf.WellFormed) (h : conf.live? host = some d)
    {removed : List Nat} (listed : ∀ c ∈ removed, ∃ k, c ∈ d.entries k) :
    ¬ conf.BelowSome removed host := by
  rintro ⟨c, hc, below⟩
  obtain ⟨k, hk⟩ := listed c hc
  have := wf.lt_of_mem_entries h hk
  have := below.le wf
  omega

/-- Entries of a section are uprooted if all below them is marked and the section loses them. -/
lemma Uprooted.of_nodes (h : conf.live? host = some d) {removed : List Nat} (content : Content)
    (wfa : after.WellFormed) (settings : { after with nodes := conf.nodes } = conf)
    (size : after.nodes.size = conf.nodes.size)
    (kind : ({ d with content := content } : NodeData).kind = d.kind)
    (entries : ∀ k, ({ d with content := content } : NodeData).entries k =
      (d.entries k).filter (· ∉ removed))
    (buried : ∀ id, conf.BelowSome removed id →
      after.nodes[id]? = conf.nodes[id]?.map NodeData.buried)
    (kept : after.nodes[host]? = some { d with content := content, modified := true })
    (others : ∀ id ≠ host, ¬ conf.BelowSome removed id → after.nodes[id]? = conf.nodes[id]?) :
    Uprooted conf host removed after := by
  have live : after.live? host = some { d with content := content, modified := true } :=
    live?_eq_some.2 ⟨kept, (live?_eq_some.1 h).2⟩
  refine ⟨wfa, settings, size, fun id e he => ⟨fun dead => ?_, fun below => ?_⟩,
    ⟨d, content, h, live, kind, entries⟩, others⟩
  · by_contra apart
    -- Neither the section nor a node that is as it was is dead.
    by_cases here : id = host
    · subst here
      rw [live] at dead
      cases dead
    · rw [live?, others id here apart, ← live?, he] at dead
      cases dead
  · rw [live?, buried id below, (live?_eq_some.1 he).1]
    simp [NodeData.buried]

/-- A node that is removed is uprooted. -/
lemma uprooted_removeNode (wf : conf.WellFormed) {id parent : Nat} {pd : NodeData}
    (h : conf.live? id = some d) (hp : d.parent = some parent)
    (hpd : conf.live? parent = some pd) :
    Uprooted conf parent [id] (conf.removeNode parent id) := by
  have marked : ∀ n, n ∈ conf.preorder id ↔ conf.BelowSome [id] n := by
    intro n
    rw [mem_preorder_iff wf h]
    simp [BelowSome]
  have listed : ∀ c ∈ [id], ∃ k, c ∈ pd.entries k := by
    intro c hc
    obtain rfl := List.mem_singleton.1 hc
    exact ⟨_, wf.mem_entries h hp hpd⟩
  have apart := not_belowSome_self wf hpd listed
  refine .of_nodes hpd (pd.content.erase id) (wf.removeNode h hp) rfl ?_
    (NodeData.kind_erase pd.modified) (fun k => ?_) (fun n below => ?_) ?_ fun n ne kept => ?_
  · rw [removeNode, size_markDeleted, size_modifyNode]
  · refine (NodeData.entries_erase k pd.modified).trans (List.filter_congr fun c _ => ?_)
    simp [bne, BEq.beq]
  · have ne : parent ≠ n := by
      rintro rfl
      exact apart below
    rw [removeNode, nodes_markDeleted, if_pos ((marked n).2 below), nodes_modifyNode, if_neg ne]
  · rw [removeNode, nodes_markDeleted, if_neg (mt (marked _).1 apart), nodes_modifyNode,
      if_pos rfl, (live?_eq_some.1 hpd).1, Option.map_some]
  · rw [removeNode, nodes_markDeleted, if_neg (mt (marked n).1 kept), nodes_modifyNode,
      if_neg ne.symm]

/-- The entries of a section that is emptied are uprooted. -/
lemma uprooted_emptyNode (wf : conf.WellFormed) (h : conf.live? host = some d) :
    Uprooted conf host (conf.attributesOf host ++ conf.childrenOf host)
      (conf.emptyNode host) := by
  have listed : ∀ c ∈ conf.attributesOf host ++ conf.childrenOf host, ∃ k, c ∈ d.entries k :=
    fun c hc => (mem_attributesOf_append h).1 hc
  have apart := not_belowSome_self wf h listed
  -- What lies properly below the section lies below one of its entries.
  have marked : ∀ n, n ∈ (conf.preorder host).drop 1 ↔
      conf.BelowSome (conf.attributesOf host ++ conf.childrenOf host) n := by
    intro n
    rw [mem_drop_preorder_iff wf h]
    constructor
    · rintro ⟨below, ne⟩
      obtain rfl | ⟨e, k, c, he, hc, below⟩ := below.cases_top wf
      · exact absurd rfl ne
      · exact ⟨c, (mem_attributesOf_append he).2 ⟨k, hc⟩, below⟩
    · rintro ⟨c, hc, below⟩
      obtain ⟨k, hk⟩ := listed c hc
      exact ⟨(Below.of_mem_entries wf h hk).trans below, fun e => apart ⟨c, hc, e ▸ below⟩⟩
  refine .of_nodes h d.content.cleared (wf.emptyNode h) rfl ?_
    (NodeData.kind_cleared d.modified) (fun k => ?_) (fun n below => ?_) ?_ fun n ne kept => ?_
  · rw [emptyNode, size_modifyNode, size_markDeleted]
  · refine (NodeData.entries_cleared k d.modified).trans (List.filter_eq_nil_iff.2 ?_).symm
    intro c hc
    have entry := (mem_attributesOf_append h).2 ⟨k, hc⟩
    simpa only [decide_eq_true_eq, not_not] using entry
  · have ne : host ≠ n := by
      rintro rfl
      exact apart below
    rw [emptyNode, nodes_modifyNode, if_neg ne, nodes_markDeleted, if_pos ((marked n).2 below)]
  · exact (live?_eq_some.1 (live?_emptyNode_self wf h)).1
  · rw [emptyNode, nodes_modifyNode, if_neg ne.symm, nodes_markDeleted,
      if_neg (mt (marked n).1 kept)]

/-! ## Marking with a worklist -/

/-- The preorder is the same for any depth that allows for the rest of the arena. -/
lemma preorderWithin_eq (wf : conf.WellFormed) {n m id : Nat} (h : conf.live? id = some d)
    (hn : conf.nodes.size ≤ n + id) (hm : conf.nodes.size ≤ m + id) :
    conf.preorderWithin n id = conf.preorderWithin m id := by
  have inside := lt_size_of_live h
  induction n generalizing m id d with
  | zero => omega
  | succ n ih =>
    cases m with
    | zero => omega
    | succ m =>
      rw [preorderWithin, preorderWithin]
      refine congrArg (id :: ·) (List.flatMap_congr fun c hc => ?_)
      obtain ⟨k, hk⟩ := (mem_attributesOf_append h).1 hc
      obtain ⟨e, live, -, -⟩ := wf.listed id d k c h hk
      have later := wf.lt_of_mem_entries h hk
      exact ih live (by omega) (by omega) (lt_size_of_live live)

/-- The preorder of a live node is the node, and then those of its entries. -/
lemma preorder_eq (wf : conf.WellFormed) {id : Nat} (h : conf.live? id = some d) :
    conf.preorder id =
      id :: (d.entries .attributeKind ++ d.entries .sectionKind).flatMap conf.preorder := by
  have inside := lt_size_of_live h
  rw [preorder, preorderWithin_eq wf h (m := conf.nodes.size + 1) (by omega) (by omega),
    preorderWithin, attributesOf_eq h, childrenOf_eq h]
  rfl

/-- A worklist marks nodes. In each round some node is taken from those that are pending, it is
marked, and all that it lists is put among the pending nodes. No list is emptied. -/
inductive Sweeps (conf : Configuration) (tops : List Nat) :
    List Nat → List Nat → Configuration → Prop where
  | start : Sweeps conf tops [] tops conf
  | round {marked pending rest : List Nat} {mid : Configuration} {id : Nat} {d : NodeData} :
    Sweeps conf tops marked pending mid →
    pending.Perm (id :: rest) →
    mid.nodes[id]? = some d →
    Sweeps conf tops (marked ++ [id])
      (rest ++ (d.entries .attributeKind ++ d.entries .sectionKind))
      (mid.modifyNode id NodeData.buried)

section

variable {tops marked pending : List Nat} {mid : Configuration}

/-- The last of the nodes can be marked as deleted after the others. -/
lemma markDeleted_concat (ids : List Nat) (id : Nat) :
    conf.markDeleted (ids ++ [id]) = (conf.markDeleted ids).modifyNode id NodeData.buried := by
  rw [markDeleted, List.foldl_append]
  rfl

/-- A node keeps its lists when nodes are marked. -/
lemma entries_of_markDeleted {ids : List Nat} {id : Nat} {e : NodeData}
    (h : conf.live? id = some d) (he : (conf.markDeleted ids).nodes[id]? = some e) :
    e.entries = d.entries := by
  rw [nodes_markDeleted, (live?_eq_some.1 h).1] at he
  split at he
  · cases he
    funext k
    cases k <;> rfl
  · cases he
    rfl

/-- The marked nodes, and those that the pending ones lead to, are the nodes below the tops. -/
lemma Sweeps.spec (wf : conf.WellFormed) (live : ∀ c ∈ tops, ∃ d, conf.live? c = some d)
    (h : Sweeps conf tops marked pending mid) :
    (marked ++ pending.flatMap conf.preorder).Perm (tops.flatMap conf.preorder) ∧
      mid = conf.markDeleted marked ∧ ∀ c ∈ pending, ∃ d, conf.live? c = some d := by
  induction h with
  | start => exact ⟨.refl _, rfl, live⟩
  | @round marked pending rest mid id e _ taken he ih =>
    obtain ⟨spread, rfl, inside⟩ := ih
    obtain ⟨d, hd⟩ := inside id (taken.mem_iff.2 List.mem_cons_self)
    rw [entries_of_markDeleted hd he]
    refine ⟨?_, (markDeleted_concat marked id).symm, fun c hc => ?_⟩
    · refine .trans ?_ spread
      rw [List.append_assoc]
      refine .append_left marked (.trans ?_ (taken.flatMap_right conf.preorder).symm)
      -- The node leads to itself and to what its entries lead to.
      rw [List.flatMap_cons, preorder_eq wf hd, List.flatMap_append, List.singleton_append,
        List.cons_append]
      exact .cons id List.perm_append_comm
    · rcases List.mem_append.1 hc with old | entry
      · exact inside c (taken.mem_iff.2 (List.mem_cons_of_mem id old))
      · rw [← attributesOf_eq hd, ← childrenOf_eq hd, mem_attributesOf_append hd] at entry
        obtain ⟨k, hk⟩ := entry
        obtain ⟨x, hx, -⟩ := wf.listed id d k c hd hk
        exact ⟨x, hx⟩

/-- Which nodes are marked counts, not in which order. -/
lemma markDeleted_perm {ids ids' : List Nat} (h : ids.Perm ids') :
    conf.markDeleted ids = conf.markDeleted ids' := by
  have nodes : (conf.markDeleted ids).nodes = (conf.markDeleted ids').nodes := by
    refine Array.ext_getElem? fun n => ?_
    simp only [nodes_markDeleted, h.mem_iff]
  calc conf.markDeleted ids = { conf with nodes := (conf.markDeleted ids).nodes } := rfl
    _ = conf.markDeleted ids' := by rw [nodes]; rfl

/-- A worklist that starts with a live node goes on as long as a node is pending, but not for more
rounds than there are nodes below. When nothing is pending, it has marked the nodes below. -/
lemma sweeps_exact (wf : conf.WellFormed) {id : Nat} (h : conf.live? id = some d)
    (sweeps : Sweeps conf [id] marked pending mid) :
    marked.length ≤ (conf.preorder id).length ∧
      (pending ≠ [] → ∃ c pending' mid', Sweeps conf [id] (marked ++ [c]) pending' mid') ∧
      (pending = [] → mid = conf.markDeleted (conf.preorder id)) := by
  obtain ⟨spread, final, inside⟩ := sweeps.spec wf fun c hc => ⟨d, List.mem_singleton.1 hc ▸ h⟩
  rw [List.flatMap_cons, List.flatMap_nil, List.append_nil] at spread
  refine ⟨?_, fun left => ?_, fun done => ?_⟩
  · have := spread.length_eq
    rw [List.length_append] at this
    omega
  · obtain ⟨c, rest, rfl⟩ := List.exists_cons_of_ne_nil left
    obtain ⟨e, he⟩ := inside c List.mem_cons_self
    have size : c < mid.nodes.size := by
      rw [final, size_markDeleted]
      exact lt_size_of_live he
    exact ⟨c, _, _, sweeps.round (.refl _) (Array.getElem?_eq_getElem size)⟩
  · rw [done, List.flatMap_nil, List.append_nil] at spread
    exact final.trans (markDeleted_perm spread)

end

/-! ## Deleting and clearing -/

/-- A live node other than the root can be deleted from a writable configuration. -/
lemma apply_delete (wf : conf.WellFormed) (writable : conf.readOnly = false) {id parent : Nat}
    (h : conf.live? id = some d) (hp : d.parent = some parent) :
    (Edit.delete id).apply conf = (.ok (), conf.removeNode parent id) := by
  obtain ⟨-, pd, hpd, -⟩ := wf.parent h hp
  refine Edit.apply_checked_ok (a := parent) ?_
  have open' : conf.checkWritable = .ok () := checkWritable_ok.2 writable
  rw [open', requireLive_ok.2 h, ok_bind, ok_bind, hp]
  dsimp only
  rw [requireLive_ok.2 hpd]
  rfl

/-- A live node other than the root can be deleted, and a live section can be cleared. Exactly the
nodes below the node, or below the entries of the section, die. The section that listed them keeps
its other entries in their order, and is flagged. No other node is different. -/
theorem deletions_exact (reach : Reachable conf) (writable : conf.readOnly = false) :
    (∀ id d, conf.live? id = some d → id ≠ root →
      ∃ parent after, d.parent = some parent ∧ (Edit.delete id).apply conf = (.ok (), after) ∧
        Uprooted conf parent [id] after) ∧
      ∀ id d, conf.live? id = some d → d.kind = .sectionKind →
        ∃ after, (Edit.clear id).apply conf = (.ok (), after) ∧
          Uprooted conf id (conf.attributesOf id ++ conf.childrenOf id) after ∧
          after.attributesOf id = [] ∧ after.childrenOf id = [] := by
  have wf := reach.wellFormed
  refine ⟨fun id d h inner => ?_, fun id d h sec => ?_⟩
  · obtain ⟨parent, pd, hp, -, hpd, -⟩ := wf.owned id d h inner
    exact ⟨parent, _, hp, apply_delete wf writable h hp, uprooted_removeNode wf h hp hpd⟩
  · have emptied := live?_emptyNode_self wf h
    refine ⟨_, Edit.apply_clear writable h sec, uprooted_emptyNode wf h, ?_, ?_⟩
    · rw [attributesOf_eq emptied, NodeData.entries_cleared]
    · rw [childrenOf_eq emptied, NodeData.entries_cleared]

/-- A section is deleted from between two others with the attribute and the section that it has,
behind a node that was dead before. -/
theorem deletions_exact_between :
    let conf := (withRoot "base").operateAll
      [(.bare, .addSection 0 "a" none), (.bare, .addAttribute 0 "x" none), (.bare, .delete 2),
        (.bare, .addSection 0 "b" none), (.bare, .addAttribute 3 "y" (some "1")),
        (.bare, .addSection 3 "c" none), (.bare, .addSection 0 "d" none), (.bare, .resetModified)]
    ∃ after, (Edit.delete 3).apply conf = (.ok (), after) ∧ Uprooted conf 0 [3] after ∧
      after.childrenOf 0 = [1, 6] := by
  intro conf
  have reach : Reachable conf :=
    (Reachable.withRoot "base").operateAll _ (by simp [Operation.others])
  have writable : conf.readOnly = false := by decide +kernel
  obtain ⟨parent, after, hp, run, uprooted⟩ := (deletions_exact reach writable).1 3
    ⟨"b", none, some 0, .lists #[5] #[4], false, false⟩ (by decide +kernel) (by decide)
  cases hp
  obtain ⟨d, content, before, kept, -, entries⟩ := uprooted.shrunk
  have root : conf.live? 0 = some ⟨"base", none, none, .lists #[1, 3, 6] #[], false, false⟩ := by
    decide +kernel
  rw [root] at before
  cases before
  refine ⟨after, run, uprooted, ?_⟩
  rw [childrenOf_eq kept]
  exact entries .sectionKind

end Configuration

end ConfTree
