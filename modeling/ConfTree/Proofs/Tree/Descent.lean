import ConfTree.Proofs.Text.Lowered
import ConfTree.Proofs.Tree.Preservation
import Mathlib.Data.List.Find

/-!
# Descents by name

A path of names leads from a section down to the entry that it names: at each step to the first
child section of the name. Where the names are low ones, no two paths lead to one node
(`sectionUnder?_injective`), and a path to a section passes through all above it
(`sectionUnder?_of_below`). A node that is added takes nothing from a path that led somewhere
before (`sectionUnder?_addNode`), and it is found if there was no entry of its name
(`named?_addNode_new`).
-/

namespace ConfTree.Configuration

open ConfTree.Text

/-- The first entry of a kind with the given name. -/
def named? (conf : Configuration) (k : Kind) (id : NodeId) (name : String) : Option NodeId :=
  match k with
  | .sectionKind => conf.child? id name
  | .attributeKind => conf.attribute? id name

/-- The section to which a path of names leads from another section. -/
def sectionUnder? (conf : Configuration) (id : NodeId) (names : List String) : Option NodeId :=
  names.foldlM conf.child? id

/-- The attribute to which the names of sections and its own name lead from the root. -/
def attributeUnder? (conf : Configuration) (path : List String × String) : Option NodeId :=
  (conf.sectionUnder? root path.1).bind (conf.attribute? · path.2)

variable {conf : Configuration} {id p x y : Nat} {d pd : NodeData} {k : Kind} {name : String}
  {names : List String}

/-! ## Entries of a name -/

/-- A live section finds the first of its entries with the name. -/
lemma named?_eq (h : conf.live? id = some d) (name : String) :
    conf.named? k id name = (d.entries k).find? (conf.isNamed · name) := by
  cases k with
  | sectionKind => rw [named?, child?, childrenOf_eq h]
  | attributeKind => rw [named?, attribute?, attributesOf_eq h]

/-- Nothing is found below a node that is not live. -/
lemma named?_of_dead (h : conf.live? id = none) (k : Kind) (name : String) :
    conf.named? k id name = none := by
  cases k with
  | sectionKind => rw [named?, child?, childrenOf, h]; rfl
  | attributeKind => rw [named?, attribute?, attributesOf, h]; rfl

/-- What is found by its name is an entry, and has the name. -/
lemma of_named? (wf : conf.WellFormed) (found : conf.named? k p name = some x) :
    ∃ pd d, conf.live? p = some pd ∧ x ∈ pd.entries k ∧ conf.live? x = some d ∧ d.kind = k ∧
      d.parent = some p ∧ sameName d.name (trim name) = true := by
  cases hp : conf.live? p with
  | none =>
    rw [named?_of_dead hp] at found
    cases found
  | some pd =>
    rw [named?_eq hp] at found
    have hx := List.mem_of_find?_eq_some found
    obtain ⟨d, live, kind, parent⟩ := wf.listed p pd k x hp hx
    have named := List.find?_some found
    rw [isNamed, hasName, live] at named
    exact ⟨pd, d, rfl, hx, live, kind, parent, named⟩

/-- An entry is found in one section and by one low name only. -/
lemma named?_injective (wf : conf.WellFormed) {q : Nat} {m n : String} {l : Kind}
    (lowm : LowName m) (lown : LowName n) (hm : conf.named? k p m = some x)
    (hn : conf.named? l q n = some x) : p = q ∧ m = n := by
  obtain ⟨-, d, -, -, live, -, parent, named⟩ := of_named? wf hm
  obtain ⟨-, e, -, -, live', -, parent', named'⟩ := of_named? wf hn
  rw [live] at live'
  cases live'
  rw [parent] at parent'
  rw [lowm.good.2] at named
  rw [lown.good.2] at named'
  exact ⟨Option.some.inj parent',
    lowm.eq_of_sameName lown (sameName_trans (sameName_symm named) named')⟩

/-! ## Paths to sections -/

/-- No names lead nowhere else. -/
@[simp]
lemma sectionUnder?_nil (conf : Configuration) (id : NodeId) : conf.sectionUnder? id [] = some id :=
  rfl

/-- Names are followed one part after the other. -/
lemma sectionUnder?_append (conf : Configuration) (id : NodeId) (xs ys : List String) :
    conf.sectionUnder? id (xs ++ ys) = (conf.sectionUnder? id xs).bind (conf.sectionUnder? · ys) :=
  List.foldlM_append

/-- The last name is followed from where the others lead. -/
lemma sectionUnder?_concat (conf : Configuration) (id : NodeId) (xs : List String) (n : String) :
    conf.sectionUnder? id (xs ++ [n]) =
      (conf.sectionUnder? id xs).bind (conf.named? .sectionKind · n) := by
  rw [sectionUnder?_append]
  refine congrArg _ (funext fun x => ?_)
  rw [sectionUnder?, List.foldlM_cons, named?]
  cases conf.child? x n <;> rfl

/-- The last step of a path leads from a section to an entry of it. -/
lemma of_sectionUnder?_concat {xs : List String} {n : String}
    (found : conf.sectionUnder? id (xs ++ [n]) = some x) :
    ∃ p, conf.sectionUnder? id xs = some p ∧ conf.named? .sectionKind p n = some x := by
  rw [sectionUnder?_concat] at found
  exact Option.bind_eq_some_iff.1 found

/-- A path leads to a section that lies below the one where it starts. -/
lemma of_sectionUnder? (wf : conf.WellFormed) (h : conf.live? id = some d)
    (sec : d.kind = .sectionKind) (found : conf.sectionUnder? id names = some x) :
    conf.Below id x ∧ ∃ e, conf.live? x = some e ∧ e.kind = .sectionKind := by
  induction names using List.reverseRecOn generalizing x with
  | nil =>
    cases found
    exact ⟨.self, d, h, sec⟩
  | append_singleton names n ih =>
    obtain ⟨p, before, last⟩ := of_sectionUnder?_concat found
    obtain ⟨-, e, -, -, live, kind, parent, -⟩ := of_named? wf last
    exact ⟨.step live parent (ih before).1, e, live, kind⟩

/-- No step leads to the root, which has no parent. -/
lemma sectionUnder?_concat_ne_root (wf : conf.WellFormed) (xs : List String) (n : String) :
    conf.sectionUnder? id (xs ++ [n]) ≠ some root := by
  intro found
  obtain ⟨p, -, last⟩ := of_sectionUnder?_concat found
  obtain ⟨-, d, -, -, live, -, parent, -⟩ := of_named? wf last
  exact wf.ne_root live parent rfl

/-- Two paths of low names that lead from the root to one section are the same. -/
lemma sectionUnder?_injective (wf : conf.WellFormed) {xs ys : List String}
    (lowx : ∀ n ∈ xs, LowName n) (lowy : ∀ n ∈ ys, LowName n)
    (hx : conf.sectionUnder? root xs = some x) (hy : conf.sectionUnder? root ys = some x) :
    xs = ys := by
  -- Both paths are taken back step by step, and end together at the root.
  induction xs using List.reverseRecOn generalizing ys x with
  | nil =>
    cases hx
    rcases List.eq_nil_or_concat ys with rfl | ⟨ys, n, rfl⟩
    · rfl
    · rw [List.concat_eq_append] at hy
      exact (sectionUnder?_concat_ne_root wf ys n hy).elim
  | append_singleton xs m ih =>
    rcases List.eq_nil_or_concat ys with rfl | ⟨ys, n, rfl⟩
    · cases hy
      exact (sectionUnder?_concat_ne_root wf xs m hx).elim
    · rw [List.concat_eq_append] at hy lowy ⊢
      obtain ⟨p, before, last⟩ := of_sectionUnder?_concat hx
      obtain ⟨q, before', last'⟩ := of_sectionUnder?_concat hy
      rw [List.forall_mem_append, List.forall_mem_singleton] at lowx lowy
      obtain ⟨rfl, rfl⟩ := named?_injective wf lowx.2 lowy.2 last last'
      rw [ih lowx.1 lowy.1 before before']

/-- A path to a section passes through all that lies above the section. -/
lemma sectionUnder?_of_below (wf : conf.WellFormed) (found : conf.sectionUnder? root names = some x)
    (below : conf.Below y x) :
    ∃ pre post, names = pre ++ post ∧ conf.sectionUnder? root pre = some y := by
  induction names using List.reverseRecOn generalizing x with
  | nil =>
    cases found
    have le := below.le wf
    refine ⟨[], [], rfl, ?_⟩
    rw [sectionUnder?_nil, Nat.le_zero.1 le]
    rfl
  | append_singleton names n ih =>
    obtain ⟨p, before, last⟩ := of_sectionUnder?_concat found
    obtain ⟨-, d, -, -, live, -, parent, -⟩ := of_named? wf last
    rcases below.parent live parent with rfl | above
    · exact ⟨names ++ [n], [], by simp, found⟩
    · obtain ⟨pre, post, rfl, reached⟩ := ih before above
      exact ⟨pre, post ++ [n], by simp, reached⟩

/-! ## Paths to attributes -/

/-- A path leads to an attribute of the section to which its front leads. -/
lemma of_attributeUnder? (wf : conf.WellFormed) {path : List String × String}
    (found : conf.attributeUnder? path = some x) :
    ∃ p d, conf.sectionUnder? root path.1 = some p ∧ conf.live? x = some d ∧
      d.kind = .attributeKind ∧ d.parent = some p ∧ sameName d.name (trim path.2) = true := by
  obtain ⟨p, front, last⟩ := Option.bind_eq_some_iff.1 found
  obtain ⟨-, d, -, -, live, kind, parent, named⟩ := of_named? (k := .attributeKind) wf last
  exact ⟨p, d, front, live, kind, parent, named⟩

/-- Two paths of low names that lead to one attribute are the same. -/
lemma attributeUnder?_injective (wf : conf.WellFormed) {v w : List String × String}
    (lowv : ∀ n ∈ v.1 ++ [v.2], LowName n) (loww : ∀ n ∈ w.1 ++ [w.2], LowName n)
    (hv : conf.attributeUnder? v = some x) (hw : conf.attributeUnder? w = some x) : v = w := by
  obtain ⟨p, front, last⟩ := Option.bind_eq_some_iff.1 hv
  obtain ⟨q, front', last'⟩ := Option.bind_eq_some_iff.1 hw
  rw [List.forall_mem_append, List.forall_mem_singleton] at lowv loww
  obtain ⟨rfl, same⟩ :=
    named?_injective (k := .attributeKind) (l := .attributeKind) wf lowv.2 loww.2 last last'
  exact Prod.ext (sectionUnder?_injective wf lowv.1 loww.1 front front') same

/-! ## Paths after a node was added -/

section

variable {kind : Kind} {value : Option String} {m : String}
  (h : conf.live? p = some pd) (sec : pd.kind = .sectionKind)

include h sec

/-- A new node changes no name. -/
lemma isNamed_addNode_old (hx : conf.live? x = some d) :
    (conf.addNode kind p name value).isNamed x m = conf.isNamed x m := by
  obtain ⟨e, live, -, -, same, -⟩ := live?_addNode_old h sec hx
  rw [isNamed, isNamed, hasName, hasName, live, hx]
  exact congrArg (sameName · (trim m)) same

/-- An entry is looked for among the old ones, and the new one is the last. -/
lemma named?_addNode_eq (hid : conf.live? id = some d) :
    (conf.addNode kind p name value).named? k id m =
      (if id = p ∧ k = kind then d.entries k ++ [conf.nodes.size] else d.entries k).find?
        ((conf.addNode kind p name value).isNamed · m) := by
  obtain ⟨e, live, -, -, -, entries⟩ : ∃ e : NodeData,
    (conf.addNode kind p name value).live? id = some e ∧ _ := live?_addNode_old h sec hid
  rw [named?_eq live, entries]

variable (wf : conf.WellFormed)

include wf

/-- The old entries of a name are found among the old entries as before. -/
lemma find?_addNode_old (hid : conf.live? id = some d) :
    (d.entries k).find? ((conf.addNode kind p name value).isNamed · m) = conf.named? k id m := by
  rw [named?_eq hid]
  refine List.find?_congr fun c hc => ?_
  obtain ⟨e, live, -⟩ := wf.listed id d k c hid hc
  exact isNamed_addNode_old h sec live

/-- An entry that was found by its name is still found when a node was added. -/
lemma named?_addNode (found : conf.named? k id m = some x) :
    (conf.addNode kind p name value).named? k id m = some x := by
  obtain ⟨d, -, live, -⟩ := of_named? wf found
  rw [named?_addNode_eq h sec live]
  split
  · rw [List.find?_append, find?_addNode_old h sec wf live, found]
    rfl
  · rw [find?_addNode_old h sec wf live, found]

/-- A new node is found by its name if no entry had the name. -/
lemma named?_addNode_new (good : GoodName name) (none : conf.named? kind p name = none) :
    (conf.addNode kind p name value).named? kind p name = some conf.nodes.size := by
  have named : (conf.addNode kind p name value).isNamed conf.nodes.size name = true := by
    rw [isNamed, hasName, live?_addNode_new h, good.2]
    exact sameName_refl name
  rw [named?_addNode_eq h sec h, if_pos ⟨rfl, rfl⟩, List.find?_append,
    find?_addNode_old h sec wf h, none]
  simp [named]

/-- A path leads where it led before a node was added. -/
lemma sectionUnder?_addNode (found : conf.sectionUnder? id names = some x) :
    (conf.addNode kind p name value).sectionUnder? id names = some x := by
  induction names using List.reverseRecOn generalizing x with
  | nil => exact found
  | append_singleton names n ih =>
    obtain ⟨q, before, last⟩ := of_sectionUnder?_concat found
    rw [sectionUnder?_concat, ih before]
    exact named?_addNode h sec wf last

/-- What is found by a path is found by it beside a new node, too. -/
lemma attributeUnder?_addNode {path : List String × String}
    (found : conf.attributeUnder? path = some x) :
    (conf.addNode kind p name value).attributeUnder? path = some x := by
  obtain ⟨q, before, last⟩ := Option.bind_eq_some_iff.1 found
  rw [attributeUnder?, sectionUnder?_addNode h sec wf before]
  exact named?_addNode (k := .attributeKind) h sec wf last

omit wf in
/-- What lay below a node still does when a node was added. -/
lemma below_addNode (below : conf.Below x y) : (conf.addNode kind p name value).Below x y := by
  induction below with
  | self => exact .self
  | step live parent _ ih =>
    obtain ⟨e, live', -, parent', -⟩ := live?_addNode_old h sec live
    exact .step live' (parent'.trans parent) ih

end

end ConfTree.Configuration
