import ConfTree.Proofs.Binding.Groups
import ConfTree.Proofs.Evaluation.Plain
import ConfTree.Proofs.Operation.Reachable
import ConfTree.Proofs.Tree.Shape

/-!
# Bound sections

A section is bound by adding its entries to a table one after the other, so that it is the table of
the classes of its entries if they can all be bound (`bind_entries`). It cannot be bound exactly if
a value below it has to be evaluated and cannot be (`bind_fails_iff`).
-/

namespace ConfTree

/-! ## Folds that fail -/

section

variable {ε α β γ : Type}

/-- The outcome is an error. -/
def Fails (outcome : Except ε α) : Prop := ∃ e, outcome = .error e

/-- A result is no failure. -/
lemma not_fails_ok {a : α} : ¬ Fails (.ok a : Except ε α) := nofun

/-- An outcome that is only converted fails as it is. -/
lemma fails_map_iff {outcome : Except ε α} {f : α → β} :
    Fails (outcome >>= fun a => .ok (f a)) ↔ Fails outcome := by
  cases outcome with
  | error e => exact iff_of_true ⟨e, rfl⟩ ⟨e, rfl⟩
  | ok a => exact iff_of_false not_fails_ok not_fails_ok

variable {outcome : α → Except ε γ} {add : β → α → γ → β} {xs : List α}

/-- A fold depends on what its steps do with the members of the list. -/
lemma foldlM_congr {step step' : β → α → Except ε β}
    (same : ∀ b, ∀ x ∈ xs, step b x = step' b x) (start : β) :
    xs.foldlM step start = xs.foldlM step' start := by
  induction xs generalizing start with
  | nil => rfl
  | cons x xs ih =>
    rw [List.foldlM_cons, List.foldlM_cons, same start x List.mem_cons_self]
    exact congrArg _ (funext fun b => ih (fun b y hy => same b y (List.mem_cons_of_mem _ hy)) b)

/-- A fold over outcomes that are all given is the fold over what is given. -/
lemma foldlM_eq_ok {value : α → γ} (given : ∀ x ∈ xs, outcome x = .ok (value x)) (start : β) :
    xs.foldlM (fun acc x => outcome x >>= fun y => .ok (add acc x y)) start =
      .ok (xs.foldl (fun acc x => add acc x (value x)) start) := by
  induction xs generalizing start with
  | nil => rfl
  | cons x xs ih =>
    rw [List.foldlM_cons, given x List.mem_cons_self]
    exact ih (fun y hy => given y (List.mem_cons_of_mem _ hy)) _

/-- A fold over outcomes fails exactly if one of them is an error. -/
lemma foldlM_fails_iff (start : β) :
    Fails (xs.foldlM (fun acc x => outcome x >>= fun y => .ok (add acc x y)) start) ↔
      ∃ x ∈ xs, Fails (outcome x) := by
  induction xs generalizing start with
  | nil => exact ⟨fun h => absurd h not_fails_ok, nofun⟩
  | cons x xs ih =>
    rw [List.foldlM_cons, List.exists_mem_cons_iff]
    cases found : outcome x with
    | error e => exact iff_of_true ⟨e, rfl⟩ (.inl ⟨e, rfl⟩)
    | ok y =>
      rw [or_iff_right not_fails_ok, ← ih (add start x y)]
      rfl

end

namespace Binding

variable {process : Host} {conf : Configuration} {names : List String}
  {fields : List (String × TypedValue)}

/-- Attributes are added one after the other, each with its own value. -/
lemma addAttributes_eq (attributes : List Attribute) :
    addAttributes process conf names fields attributes = attributes.foldlM (fun fields a =>
      ofAttribute process conf a.id >>= fun v => .ok (addEntry names fields a.name v)) fields := by
  induction attributes generalizing fields with
  | nil => rfl
  | cons a attributes ih =>
    rw [addAttributes, List.foldlM_cons]
    cases ofAttribute process conf a.id with
    | error e => rfl
    | ok v => exact ih

/-- Child sections are added one after the other, each with its own value. -/
lemma addSections_eq (ts : List Subtree) :
    addSections process conf names fields ts = ts.foldlM (fun fields t =>
      ofSection process conf t >>= fun v => .ok (addEntry names fields t.name v)) fields := by
  induction ts generalizing fields with
  | nil => rfl
  | cons t ts ih =>
    rw [addSections, List.foldlM_cons]
    cases ofSection process conf t with
    | error e => rfl
    | ok v => exact ih

end Binding

namespace Configuration

open Binding

variable {process : Host} {conf : Configuration} {id : Nat} {d : NodeData}

/-! ## Nodes -/

/-- The attributes and the child sections of a node. -/
def entriesOf (conf : Configuration) (id : NodeId) : List NodeId :=
  conf.attributesOf id ++ conf.childrenOf id

/-- A live attribute is bound by its value. -/
lemma bind_attribute (h : conf.live? id = some d) (kind : d.kind = .attributeKind) :
    conf.bind process (some id) = ofAttribute process conf id := by
  have plain : conf.isSection id = false := by
    rw [isSection, h]
    exact NodeData.kind_eq_attributeKind.1 kind
  have live : conf.liveId? id = some id := by rw [liveId?, h, Option.map_some]
  rw [bind, Option.bind_some, live]
  simp only [plain, Bool.false_eq_true, if_false]

/-- A live section is bound by the tree below it. -/
lemma bind_section (h : conf.live? id = some d) (kind : d.kind = .sectionKind) :
    conf.bind process (some id) = ofSection process conf (conf.subtree id) := by
  have sec : conf.isSection id = true := isSection_iff.2 ⟨d, h, kind⟩
  have live : conf.liveId? id = some id := by rw [liveId?, h, Option.map_some]
  rw [bind, Option.bind_some, live]
  simp only [sec, if_true]

/-- The tree below a node has the name of the node. -/
lemma name_subtree (conf : Configuration) (id : NodeId) :
    (conf.subtree id).name = conf.nameOf id := by
  rw [subtree]
  cases conf.nodes.size <;> rfl

/-- Adds an entry, bound, to a table whose entries have the given names. -/
def addBound (process : Host) (conf : Configuration) (names : List String)
    (fields : List (String × TypedValue)) (e : NodeId) :
    Except ConfigError (List (String × TypedValue)) :=
  conf.bind process (some e) >>= fun v => .ok (addEntry names fields (conf.nameOf e) v)

/-- The value of the node is evaluated when it is bound: it is an attribute, or a section that has
nothing but a value. -/
def EvaluatedAlone (conf : Configuration) (id : NodeId) : Prop :=
  ∃ d, conf.live? id = some d ∧
    (d.kind = .attributeKind ∨ conf.entriesOf id = [] ∧ d.value.isSome = true)

/-- An attribute is bound exactly if it can be evaluated. -/
lemma bind_attribute_fails_iff (h : conf.live? id = some d) (kind : d.kind = .attributeKind) :
    Fails (conf.bind process (some id)) ↔ Fails (conf.value? process id) := by
  rw [bind_attribute h kind]
  exact fails_map_iff

section

variable (wf : conf.WellFormed) (h : conf.live? id = some d) (kind : d.kind = .sectionKind)

include wf h kind

/-- A section with entries is the table of them. -/
lemma bind_of_entries (filled : conf.entriesOf id ≠ []) :
    conf.bind process (some id) = (conf.entriesOf id).foldlM
      (conf.addBound process ((conf.entriesOf id).map conf.nameOf)) [] >>=
        fun fields => .ok (.table fields) := by
  have names : ((d.entries .attributeKind).map conf.attributeView).map (·.name) ++
      ((d.entries .sectionKind).map conf.subtree).map (·.name) =
        (conf.entriesOf id).map conf.nameOf := by
    rw [entriesOf, attributesOf_eq h, childrenOf_eq h, List.map_append, List.map_map, List.map_map]
    exact congrArg _ (List.map_congr_left fun c _ => conf.name_subtree c)
  generalize hn : (conf.entriesOf id).map conf.nameOf = all at names ⊢
  have some : all.isEmpty = false := by
    rw [← hn, List.isEmpty_map]
    exact List.isEmpty_eq_false_iff.2 filled
  -- Both kinds of entries are added like the nodes that they are made of.
  have attributes (fields : List (String × TypedValue)) :
      addAttributes process conf all fields ((d.entries .attributeKind).map conf.attributeView) =
        (conf.attributesOf id).foldlM (conf.addBound process all) fields := by
    rw [addAttributes_eq, List.foldlM_map, attributesOf_eq h]
    refine foldlM_congr (fun fields e he => ?_) fields
    obtain ⟨ed, live, kind, -⟩ := wf.listed id d _ e h he
    rw [addBound, bind_attribute live kind]
    rfl
  have children (fields : List (String × TypedValue)) :
      addSections process conf all fields ((d.entries .sectionKind).map conf.subtree) =
        (conf.childrenOf id).foldlM (conf.addBound process all) fields := by
    rw [addSections_eq, List.foldlM_map, childrenOf_eq h]
    refine foldlM_congr (fun fields e he => ?_) fields
    obtain ⟨ed, live, kind, -⟩ := wf.listed id d _ e h he
    rw [addBound, bind_section live kind, name_subtree]
  rw [bind_section h kind, subtree_eq wf h, ofSection, entriesOf, List.foldlM_append, bind_assoc]
  simp only [names, some, Bool.false_eq_true, if_false, attributes, children]
  rfl

/-- A section without entries is its value, or an empty table. -/
lemma bind_of_empty (empty : conf.entriesOf id = []) :
    conf.bind process (some id) = conf.value? process id >>= fun value =>
      .ok (value.elim (.table []) fun v => .scalar (Scalar.ofText v)) := by
  have attributes : d.entries .attributeKind = [] := by
    rw [← attributesOf_eq h]
    exact (List.append_eq_nil_iff.1 empty).1
  have children : d.entries .sectionKind = [] := by
    rw [← childrenOf_eq h]
    exact (List.append_eq_nil_iff.1 empty).2
  rw [bind_section h kind, subtree_eq wf h, ofSection, attributes, children]
  cases conf.value? process id with
  | error e => rfl
  | ok value => cases value <;> rfl

/-- If all entries of a section can be bound, it is the table of their classes. -/
lemma bind_entries {value : NodeId → TypedValue} (filled : conf.entriesOf id ≠ [])
    (given : ∀ e ∈ conf.entriesOf id, conf.bind process (some e) = .ok (value e)) :
    ∃ fields, conf.bind process (some id) = .ok (.table fields) ∧
      Groups conf.nameOf value (conf.entriesOf id) fields := by
  refine ⟨_, ?_, groups_foldl_addEntry value (conf.entriesOf id)⟩
  have run : (conf.entriesOf id).foldlM
      (conf.addBound process ((conf.entriesOf id).map conf.nameOf)) [] = _ := foldlM_eq_ok given []
  rw [bind_of_entries wf h kind filled, run, ok_bind]

/-- A section with entries cannot be bound exactly if one of them cannot. -/
lemma bind_entries_fails_iff (filled : conf.entriesOf id ≠ []) :
    Fails (conf.bind process (some id)) ↔
      ∃ e ∈ conf.entriesOf id, Fails (conf.bind process (some e)) := by
  rw [bind_of_entries wf h kind filled, fails_map_iff]
  exact foldlM_fails_iff []

end

/-- A node without entries cannot be bound exactly if its value is evaluated and cannot be. -/
lemma bind_empty_fails_iff (wf : conf.WellFormed) (h : conf.live? id = some d)
    (empty : conf.entriesOf id = []) : Fails (conf.bind process (some id)) ↔
      conf.EvaluatedAlone id ∧ Fails (conf.value? process id) := by
  cases kind : d.kind with
  | attributeKind =>
    rw [bind_attribute_fails_iff h kind, and_iff_right ⟨d, h, .inl kind⟩]
  | sectionKind =>
    rw [bind_of_empty wf h kind empty, fails_map_iff]
    refine ⟨fun fails => ⟨⟨d, h, .inr ⟨empty, ?_⟩⟩, fails⟩, And.right⟩
    -- A section without a value is not evaluated.
    by_contra none
    have literal : conf.verbatim? id = .none := by
      rw [verbatim?, h, Option.bind_some]
      exact Option.not_isSome_iff_eq_none.1 none
    rw [value?_literal (by simp [literal]) process] at fails
    exact not_fails_ok fails

/-- A node without entries is all there is below it. -/
lemma Below.eq_of_empty (wf : conf.WellFormed) (empty : conf.entriesOf id = []) {x : Nat}
    (below : conf.Below id x) : x = id := by
  obtain eq | ⟨d, k, e, h, he, -⟩ := below.cases_top wf
  · exact eq
  · have member : e ∈ conf.entriesOf id := (mem_attributesOf_append h).2 ⟨k, he⟩
    rw [empty] at member
    cases member

/-- Only sections have entries. -/
lemma kind_of_entries (h : conf.live? id = some d) (filled : conf.entriesOf id ≠ []) :
    d.kind = .sectionKind := by
  cases kind : d.kind with
  | sectionKind => rfl
  | attributeKind =>
    refine absurd ?_ filled
    rw [entriesOf, attributesOf_eq h, childrenOf_eq h, d.entries_of_attribute kind,
      d.entries_of_attribute kind]
    rfl

/-- The value of a node with entries is not evaluated. -/
lemma not_evaluatedAlone (filled : conf.entriesOf id ≠ []) : ¬ conf.EvaluatedAlone id := by
  rintro ⟨d, h, leaf | ⟨empty, -⟩⟩
  · rw [kind_of_entries h filled] at leaf
    cases leaf
  · exact filled empty

/-- A node cannot be bound exactly if a value below it is evaluated and cannot be. -/
lemma bind_fails_iff (wf : conf.WellFormed) (h : conf.live? id = some d) :
    Fails (conf.bind process (some id)) ↔
      ∃ x, conf.Below id x ∧ conf.EvaluatedAlone x ∧ Fails (conf.value? process x) := by
  -- Entries come nearer to the end of the arena than their sections.
  induction rest : conf.nodes.size - id using Nat.strongRecOn generalizing id d with
  | ind n ih =>
    have entry {e : NodeId} {k : Kind} (he : e ∈ d.entries k) :
        Fails (conf.bind process (some e)) ↔
          ∃ x, conf.Below e x ∧ conf.EvaluatedAlone x ∧ Fails (conf.value? process x) := by
      obtain ⟨ed, live, -⟩ := wf.listed id d k e h he
      have lt := wf.lt_of_mem_entries h he
      have := lt_size_of_live live
      exact ih _ (by omega) live rfl
    by_cases empty : conf.entriesOf id = []
    · rw [bind_empty_fails_iff wf h empty]
      refine ⟨fun fails => ⟨id, .self, fails⟩, ?_⟩
      rintro ⟨x, below, fails⟩
      rwa [below.eq_of_empty wf empty] at fails
    · rw [bind_entries_fails_iff wf h (kind_of_entries h empty) empty]
      constructor
      · rintro ⟨e, he, fails⟩
        obtain ⟨k, he⟩ := (mem_attributesOf_append h).1 he
        obtain ⟨x, below, fails⟩ := (entry he).1 fails
        exact ⟨x, (Below.of_mem_entries wf h he).trans below, fails⟩
      · rintro ⟨x, below, alone, fails⟩
        obtain rfl | ⟨d', k, e, h', he, below⟩ := below.cases_top wf
        · exact absurd alone (not_evaluatedAlone empty)
        · rw [h] at h'
          cases h'
          exact ⟨e, (mem_attributesOf_append h).2 ⟨k, he⟩, (entry he).2 ⟨x, below, alone, fails⟩⟩

/-- If all entries of a section can be bound, then the section is bound to the table of their
classes, with the attributes in front of the child sections. A section cannot be bound exactly if
the value of an attribute below it, or of a section below it that has nothing but a value, cannot be
evaluated. -/
theorem bind_groups (reach : conf.Reachable) (h : conf.live? id = some d)
    (kind : d.kind = .sectionKind) :
    (∀ value : NodeId → TypedValue, conf.entriesOf id ≠ [] →
      (∀ e ∈ conf.entriesOf id, conf.bind process (some e) = .ok (value e)) →
        ∃ fields, conf.bind process (some id) = .ok (.table fields) ∧
          Groups conf.nameOf value (conf.entriesOf id) fields) ∧
      (Fails (conf.bind process (some id)) ↔
        ∃ x, conf.Below id x ∧ conf.EvaluatedAlone x ∧ Fails (conf.value? process x)) :=
  ⟨fun _ filled given => bind_entries reach.wellFormed h kind filled given,
    bind_fails_iff reach.wellFormed h⟩

/-- An attribute and a child section with names that differ in the case of a letter are an array,
and a section that has nothing but a reference without an end cannot be bound. -/
theorem bind_groups_port :
    let conf := (withRoot "base").operateAll
      [(.bare, .addAttribute 0 "Port" (some "1")), (.bare, .addAttribute 0 "host" (some "x")),
        (.bare, .addSection 0 "port" (some "2")), (.bare, .addSection 0 "s" none)]
    let broken := conf.operateAll [(.bare, .addSection 4 "t" (some "$("))]
    let table : List (String × TypedValue) :=
      [("port", .array [.scalar (.int 1), .scalar (.int 2)]), ("host", .scalar (.text "x")),
        ("s", .table [])]
    (conf.bind .bare (some root) = .ok (.table table) ∧
      ∃ value, Groups conf.nameOf value (conf.entriesOf root) table) ∧
      Fails (broken.bind .bare (some root)) := by
  intro conf broken table
  have reach : conf.Reachable :=
    (Reachable.withRoot "base").operateAll _ (by simp [Operation.others])
  have reach' : broken.Reachable := reach.operateAll _ (by simp [Operation.others])
  have h : conf.live? root =
      some ⟨"base", none, none, .lists #[3, 4] #[1, 2], true, false⟩ := by decide +kernel
  have h' : broken.live? root =
      some ⟨"base", none, none, .lists #[3, 4] #[1, 2], true, false⟩ := by decide +kernel
  have entries : conf.entriesOf root = [1, 2, 3, 4] := by decide +kernel
  have bound : conf.bind .bare (some root) = .ok (.table table) := by
    unfold conf table
    rfl
  let value (e : NodeId) : TypedValue := (conf.bind .bare (some e)).toOption.getD (.table [])
  have given : ∀ e ∈ conf.entriesOf root, conf.bind .bare (some e) = .ok (value e) := by
    rw [entries]
    simp only [List.forall_mem_cons]
    unfold value conf
    exact ⟨rfl, rfl, rfl, rfl, List.forall_mem_nil _⟩
  obtain ⟨fields, bound', grouped⟩ := (bind_groups reach h rfl).1 value (by simp [entries]) given
  rw [bound] at bound'
  cases bound'
  refine ⟨⟨bound, value, grouped⟩, (bind_groups reach' h' rfl).2.2 ⟨5, ?_, ?_, _, rfl⟩⟩
  · exact (mem_preorder_iff reach'.wellFormed h').1 (by decide +kernel)
  · have live : broken.live? 5 =
        some ⟨"t", some "$(", some 4, .lists #[] #[], true, false⟩ := by decide +kernel
    exact ⟨_, live, .inr ⟨by decide +kernel, rfl⟩⟩

end Configuration

end ConfTree
