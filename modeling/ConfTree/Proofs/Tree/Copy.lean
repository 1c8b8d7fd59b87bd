import ConfTree.Proofs.Tree.Confined

/-!
# Copies

What the primitive edits and the copies made of them do to the shape of a section. To add a node and
to set a value are each confined to a node, so a copy of a subtree is too. It succeeds on a writable
configuration if all names of the subtree can be given to nodes, and then the shape of the subtree
comes last among the child sections (`copySubtree_spec`).
-/

namespace ConfTree

open ConfTree.Configuration

/-! ## Adding a node -/

section

variable {conf : Configuration} {kind : Kind} {parent : Nat} {pd : NodeData} {name : String}
  {value : Option String}

/-- A node is added below a section of a writable configuration. -/
lemma Edit.apply_append (writable : conf.readOnly = false) (h : conf.live? parent = some pd)
    (sec : pd.kind = .sectionKind) (good : GoodName name) :
    (Edit.append kind parent name value).apply conf =
      (.ok conf.nodes.size, conf.addNode kind parent name value) :=
  apply_checked_ok (appendable_iff.2 ⟨writable, good.2, good, pd, h, sec⟩)

namespace Configuration

/-- Adding a node is confined to its parent. -/
lemma Confined.addNode (kind : Kind) (value : Option String) (wf : conf.WellFormed)
    (h : conf.live? parent = some pd) (sec : pd.kind = .sectionKind) (good : GoodName name) :
    Confined parent conf (conf.addNode kind parent name value) := by
  refine ⟨wf.addNode h sec good, rfl, fun d hd => ?_, fun id d hd hn => ?_⟩
  · obtain ⟨e, he, kind', parent', -⟩ := live?_addNode_old h sec hd
    exact ⟨e, he, kind', parent'⟩
  · have := lt_size_of_live hd
    rw [live?_addNode_of_ne h (by omega), hd]
    -- The parent lies below itself.
    rintro rfl
    exact hn .self

/-- Adding a node leaves the views of all below the entries of its parent. -/
lemma view_addNode (wf : conf.WellFormed) (h : conf.live? parent = some pd) {x y : Nat} {k : Kind}
    (hx : x ∈ pd.entries k) (hb : conf.Below x y) :
    (conf.addNode kind parent name value).view y = conf.view y := by
  obtain ⟨d, live, -⟩ := wf.listed parent pd k x h hx
  obtain ⟨e, he⟩ := hb.live live
  have := lt_size_of_live he
  have := hb.le wf
  have := wf.lt_of_mem_entries h hx
  rw [view, view, live?_addNode_of_ne h (by omega) (by omega)]

/-- Adding a node leaves the looks of the other entries of its parent. -/
lemma map_entries_addNode (wf : conf.WellFormed) (h : conf.live? parent = some pd)
    (sec : pd.kind = .sectionKind) (good : GoodName name) :
    (pd.entries .attributeKind).map (conf.addNode kind parent name value).pairOf =
        (pd.entries .attributeKind).map conf.pairOf ∧
      (pd.entries .sectionKind).map (conf.addNode kind parent name value).shape =
        (pd.entries .sectionKind).map conf.shape :=
  map_entries_congr wf (wf.addNode h sec good) h fun hx hb => view_addNode wf h hx hb

/-- A new section is empty. -/
lemma shape_addNode_new (wf : conf.WellFormed) (h : conf.live? parent = some pd)
    (sec : pd.kind = .sectionKind) (good : GoodName name) :
    (conf.addNode kind parent name value).shape conf.nodes.size = .mk name value [] [] := by
  rw [shape_eq (wf.addNode h sec good) (live?_addNode_new h), entries_new, entries_new]
  rfl

/-- A new attribute comes last among the attributes of its parent. -/
lemma shape_addNode_attribute (wf : conf.WellFormed) (h : conf.live? parent = some pd)
    (sec : pd.kind = .sectionKind) (good : GoodName name) :
    (conf.addNode .attributeKind parent name value).shape parent =
      (conf.shape parent).extend [(name, value)] [] := by
  obtain ⟨attributes, children⟩ := map_entries_addNode wf h sec good
  rw [shape_eq (wf.addNode h sec good) (live?_addNode_parent h), NodeData.entries_push sec,
    NodeData.entries_push sec, if_pos rfl, if_neg (by simp), List.map_append, attributes, children,
    shape_eq wf h, List.map_singleton, pairOf_eq (live?_addNode_new h)]
  simp [Shape.extend, Shape.name, Shape.value, Shape.attributes, Shape.children]

/-- A new section that is filled afterwards comes last among the child sections of its parent. -/
lemma Confined.fill (wf : conf.WellFormed) (h : conf.live? parent = some pd)
    (sec : pd.kind = .sectionKind) (good : GoodName name) {conf' : Configuration}
    (filled : Confined conf.nodes.size (conf.addNode .sectionKind parent name value) conf') :
    Confined parent conf conf' ∧
      conf'.shape parent = (conf.shape parent).extend [] [conf'.shape conf.nodes.size] := by
  have step := Confined.addNode .sectionKind value wf h sec good
  have parent' : (conf.addNode .sectionKind parent name value).live? parent = some _ :=
    live?_addNode_parent h
  obtain ⟨attributes, children⟩ := @map_entries_addNode conf .sectionKind parent pd name value wf
    h sec good
  have last := @NodeData.entries_push pd .sectionKind conf.nodes.size sec .sectionKind true
  rw [if_pos rfl] at last
  have below : (conf.addNode .sectionKind parent name value).Below parent conf.nodes.size :=
    .of_mem_entries step.wellFormed (k := .sectionKind) parent' (by rw [last]; simp)
  refine ⟨step.trans wf (filled.above step.wellFormed below), ?_⟩
  rw [filled.shape_child step.wellFormed parent' last, NodeData.entries_push sec,
    if_neg (by simp), attributes, children, shape_eq wf h]
  simp [Shape.extend, Shape.name, Shape.value, Shape.attributes, Shape.children]

end Configuration

end

/-! ## Changing a section itself -/

namespace Configuration

/-- A change of a section itself leaves the looks of its entries. -/
lemma map_entries_modifyNode {conf : Configuration} {id : Nat} {d : NodeData}
    {f : NodeData → NodeData} (wf : conf.WellFormed) (wf' : (conf.modifyNode id f).WellFormed)
    (hf : ∀ d, (f d).deleted = d.deleted) (h : conf.live? id = some d) :
    (d.entries .attributeKind).map (conf.modifyNode id f).pairOf =
        (d.entries .attributeKind).map conf.pairOf ∧
      (d.entries .sectionKind).map (conf.modifyNode id f).shape =
        (d.entries .sectionKind).map conf.shape := by
  refine map_entries_congr wf wf' h fun {k x y} hx hb => ?_
  -- All below an entry comes after the section.
  have := hb.le wf
  have := wf.lt_of_mem_entries h hx
  rw [view, view, live?_modifyNode hf, if_neg (by omega)]

end Configuration

/-! ## Setting a value -/

section

variable {conf : Configuration} {id : Nat} {d : NodeData} {value : Option String}

/-- The value of a live node of a writable configuration can be set. -/
lemma Edit.apply_setValue (writable : conf.readOnly = false) (h : conf.live? id = some d) :
    (Edit.setValue id value).apply conf = (.ok (), conf.replaceValue id value) := by
  refine apply_checked_ok (a := ()) ?_
  have open' : conf.checkWritable = .ok () := checkWritable_ok.2 writable
  rw [open', requireLive_ok.2 h]
  rfl

namespace Configuration

/-- The live nodes after a value was set. -/
lemma live?_replaceValue {n : Nat} : (conf.replaceValue id value).live? n =
    if id = n then (conf.live? n).map fun d => { d with value := value, modified := true }
    else conf.live? n := live?_modifyNode fun _ => rfl

/-- The node after its value was set. -/
lemma live?_replaceValue_self (h : conf.live? id = some d) :
    (conf.replaceValue id value).live? id = some { d with value := value, modified := true } := by
  rw [live?_replaceValue, if_pos rfl, h, Option.map_some]

/-- Setting the value of a node is confined to it. -/
lemma Confined.replaceValue (id : Nat) (value : Option String) (wf : conf.WellFormed) :
    Confined id conf (conf.replaceValue id value) := by
  refine ⟨wf.replaceValue id value, rfl, fun d hd => ?_, fun n d hd hn => ?_⟩
  · exact ⟨_, live?_replaceValue_self hd, rfl, rfl⟩
  · rw [live?_replaceValue, if_neg, hd]
    rintro rfl
    exact hn .self

/-- Setting a value is seen at the node. -/
lemma pairOf_replaceValue (h : conf.live? id = some d) :
    (conf.replaceValue id value).pairOf id = (d.name, value) :=
  pairOf_eq (live?_replaceValue_self h)

/-- Setting the value of a section changes its shape in the value only. -/
lemma shape_replaceValue (wf : conf.WellFormed) (h : conf.live? id = some d) :
    (conf.replaceValue id value).shape id =
      .mk d.name value (conf.shape id).attributes (conf.shape id).children := by
  obtain ⟨attributes, children⟩ :=
    map_entries_modifyNode wf (wf.replaceValue id value) (fun _ => rfl) h
  rw [shape_eq (wf.replaceValue id value) (live?_replaceValue_self h), shape_eq wf h]
  exact congrArg₂ (Shape.mk d.name value) attributes children

end Configuration

end

/-! ## Setting a name -/

section

variable {conf : Configuration} {id : Nat} {d : NodeData} {name : String}

/-- A live node of a writable configuration can be given a good name. -/
lemma Edit.apply_rename (writable : conf.readOnly = false) (h : conf.live? id = some d)
    (good : GoodName name) :
    (Edit.rename id name).apply conf = (.ok (), conf.replaceName id name) := by
  refine apply_checked_ok (a := name) ?_
  have open' : conf.checkWritable = .ok () := checkWritable_ok.2 writable
  rw [open', requireName_ok.2 (validName?_of_goodName good), requireLive_ok.2 h]
  rfl

namespace Configuration

/-- The live nodes after a name was set. -/
lemma live?_replaceName {n : Nat} : (conf.replaceName id name).live? n =
    if id = n then (conf.live? n).map fun d => { d with name := name, modified := true }
    else conf.live? n := live?_modifyNode fun _ => rfl

/-- The node after its name was set. -/
lemma live?_replaceName_self (h : conf.live? id = some d) :
    (conf.replaceName id name).live? id = some { d with name := name, modified := true } := by
  rw [live?_replaceName, if_pos rfl, h, Option.map_some]

/-- Setting the name of a section changes its shape in the name only. -/
lemma shape_replaceName (wf : conf.WellFormed) (h : conf.live? id = some d) (good : GoodName name) :
    (conf.replaceName id name).shape id =
      .mk name d.value (conf.shape id).attributes (conf.shape id).children := by
  obtain ⟨attributes, children⟩ :=
    map_entries_modifyNode wf (wf.replaceName id good) (fun _ => rfl) h
  rw [shape_eq (wf.replaceName id good) (live?_replaceName_self h), shape_eq wf h]
  exact congrArg₂ (Shape.mk name d.value) attributes children

end Configuration

end

/-! ## Emptying a section -/

section

variable {conf : Configuration} {id : Nat} {d : NodeData}

/-- A section of a writable configuration can be cleared. -/
lemma Edit.apply_clear (writable : conf.readOnly = false) (h : conf.live? id = some d)
    (sec : d.kind = .sectionKind) : (Edit.clear id).apply conf = (.ok (), conf.emptyNode id) := by
  refine apply_checked_ok (a := ()) ?_
  have open' : conf.checkWritable = .ok () := checkWritable_ok.2 writable
  rw [open', requireSection_ok.2 ⟨h, sec⟩]
  rfl

namespace Configuration

/-- The section after it was emptied. -/
lemma live?_emptyNode_self (wf : conf.WellFormed) (h : conf.live? id = some d) :
    (conf.emptyNode id).live? id =
      some { d with content := d.content.cleared, modified := true } := by
  rw [(wf.live?_emptyNode h id).2 fun hn => hn.2 rfl, h, Option.map_some, if_pos rfl]

/-- Emptying a section is confined to it. -/
lemma Confined.emptyNode (wf : conf.WellFormed) (h : conf.live? id = some d) :
    Confined id conf (conf.emptyNode id) := by
  refine ⟨wf.emptyNode h, rfl, fun e he => ?_, fun n e he hn => ?_⟩
  · rw [h] at he
    cases he
    exact ⟨_, live?_emptyNode_self wf h, NodeData.kind_cleared true, rfl⟩
  · rw [(wf.live?_emptyNode h n).2 fun hb => hn hb.1, he, Option.map_some, if_neg]
    rintro rfl
    exact hn .self

/-- An emptied section has its name and its value only. -/
lemma shape_emptyNode (wf : conf.WellFormed) (h : conf.live? id = some d) :
    (conf.emptyNode id).shape id = .mk d.name d.value [] [] := by
  rw [shape_eq (wf.emptyNode h) (live?_emptyNode_self wf h), NodeData.entries_cleared,
    NodeData.entries_cleared]
  rfl

end Configuration

end

/-! ## Bare trees -/

namespace Configuration

/-- The tree of a bare root, in the arena of another tree. -/
def bared (conf : Configuration) (name : String) (value : Option String) : Configuration :=
  ((conf.emptyNode root).replaceName root name).replaceValue root value

section

variable {conf : Configuration} {d : NodeData} {name : String} {value : Option String}

/-- A tree with an emptied root has no other nodes. -/
lemma live?_emptyNode_root (wf : conf.WellFormed) {r : NodeData} (hr : conf.live? root = some r)
    {id : Nat} (h : (conf.emptyNode root).live? id = some d) : id = root := by
  by_contra other
  by_cases below : conf.Below root id
  · rw [(wf.live?_emptyNode hr id).1 ⟨below, other⟩] at h
    cases h
  · rw [(wf.live?_emptyNode hr id).2 fun hb => below hb.1] at h
    obtain ⟨e, he, -⟩ := Option.map_eq_some_iff.1 h
    exact below (wf.below_root he)

/-- The root after it was bared. -/
lemma live?_bared_root (wf : conf.WellFormed) (h : conf.live? root = some d) :
    (conf.bared name value).live? root = some { d with
      name := name, value := value, content := d.content.cleared, modified := true } :=
  live?_replaceValue_self (live?_replaceName_self (live?_emptyNode_self wf h))

/-- Nothing but the root is left, and it is bare. -/
lemma live?_bared (wf : conf.WellFormed) (name : String) (value : Option String) : ∃ d,
    (conf.bared name value).live? root = some d ∧ d.name = name ∧ d.value = value ∧
      d.content = Kind.sectionKind.freshContent ∧
      ∀ (id : Nat) x, (conf.bared name value).live? id = some x → id = root := by
  obtain ⟨d, hd, sec, -⟩ := wf.root
  refine ⟨_, live?_bared_root wf hd, rfl, rfl, ?_, fun id x hx => ?_⟩
  · rw [NodeData.kind_eq_sectionKind, NodeData.isSection] at sec
    dsimp only
    split at sec
    · rename_i h
      rw [h]
      rfl
    · cases sec
  · by_contra other
    rw [bared, live?_replaceValue, if_neg (Ne.symm other), live?_replaceName,
      if_neg (Ne.symm other)] at hx
    exact other (live?_emptyNode_root wf hd hx)

/-- A bared root keeps a configuration well formed. -/
lemma WellFormed.bared (wf : conf.WellFormed) (good : GoodName name) (value : Option String) :
    (conf.bared name value).WellFormed := by
  obtain ⟨d, hd, -⟩ := wf.root
  exact ((wf.emptyNode hd).replaceName Configuration.root good).replaceValue _ value

/-- A bare root has no entries. -/
lemma shape_bared (wf : conf.WellFormed) (good : GoodName name) (value : Option String) :
    (conf.bared name value).shape root = .mk name value [] [] := by
  obtain ⟨d, hd, -⟩ := wf.root
  have emptied := live?_emptyNode_self wf hd
  have wf' := wf.emptyNode hd
  rw [bared, shape_replaceValue (wf'.replaceName root good) (live?_replaceName_self emptied),
    shape_replaceName wf' emptied good, shape_emptyNode wf hd]
  rfl

/-- Nothing but the arena is different. -/
lemma settings_bared : { conf.bared name value with nodes := conf.nodes } = conf := by
  simp only [bared, replaceValue, replaceName, emptyNode, modifyNode, markDeleted]

/-- A bared root is as frozen as before. -/
lemma readOnly_bared : (conf.bared name value).readOnly = conf.readOnly := by
  simp only [bared, replaceValue, replaceName, emptyNode, modifyNode, markDeleted]

/-- The nodes of the tree that was there keep their places. -/
lemma size_bared : (conf.bared name value).nodes.size = conf.nodes.size := by
  rw [bared, replaceValue, size_modifyNode, replaceName, size_modifyNode, emptyNode,
    size_modifyNode, size_markDeleted]

end

end Configuration

/-! ## Copies of subtrees -/

namespace Subtree

mutual

/-- All names of the subtree can be given to nodes as they are. -/
def Named : Subtree → Prop
  | .mk _ name _ attributes children =>
    GoodName name ∧ (∀ a ∈ attributes, GoodName a.name) ∧ AllNamed children

/-- All names of the subtrees can be given to nodes as they are. -/
def AllNamed : List Subtree → Prop
  | [] => True
  | t :: ts => t.Named ∧ AllNamed ts

end

/-- The name of a tree of names is one. -/
lemma Named.name {t : Subtree} (h : t.Named) : GoodName t.name := by
  cases t
  exact h.1

/-- Each of the subtrees has good names. -/
lemma AllNamed.of_mem {ts : List Subtree} (h : AllNamed ts) {t : Subtree} (ht : t ∈ ts) :
    t.Named := by
  induction ts with
  | nil => cases ht
  | cons s ts ih =>
    rcases List.mem_cons.1 ht with rfl | ht
    · exact h.1
    · exact ih h.2 ht

/-- Subtrees have good names if each of them has. -/
lemma allNamed_of_forall {ts : List Subtree} (h : ∀ t ∈ ts, t.Named) : AllNamed ts := by
  induction ts with
  | nil => exact trivial
  | cons t ts ih =>
    exact ⟨h t List.mem_cons_self, ih fun x hx => h x (List.mem_cons_of_mem _ hx)⟩

end Subtree

namespace Configuration

variable {conf : Configuration}

/-- The names in a well-formed configuration are good. -/
lemma named_subtreeWithin (wf : conf.WellFormed) {n id : Nat} {d : NodeData}
    (h : conf.live? id = some d) : (conf.subtreeWithin n id).Named := by
  induction n generalizing id d with
  | zero =>
    rw [subtreeWithin, nameOf_eq h]
    exact ⟨wf.named id d h, by simp, trivial⟩
  | succ n ih =>
    rw [subtreeWithin, nameOf_eq h]
    refine ⟨wf.named id d h, ?_, Subtree.allNamed_of_forall ?_⟩
    · intro a ha
      obtain ⟨c, hc, rfl⟩ := List.mem_map.1 ha
      rw [attributesOf_eq h] at hc
      obtain ⟨e, live, -⟩ := wf.listed id d _ c h hc
      rw [attributeView, nameOf_eq live]
      exact wf.named c e live
    · intro t ht
      obtain ⟨c, hc, rfl⟩ := List.mem_map.1 ht
      rw [childrenOf_eq h] at hc
      obtain ⟨e, live, -⟩ := wf.listed id d _ c h hc
      exact ih live

/-- A tree of a well-formed configuration is one of names. -/
lemma named_subtree (wf : conf.WellFormed) {id : Nat} {d : NodeData} (h : conf.live? id = some d) :
    (conf.subtree id).Named := named_subtreeWithin wf h

end Configuration

namespace Edit

variable {conf : Configuration}

/-- Copied attributes come last, in order. -/
lemma copyAttributes_spec (wf : conf.WellFormed) (writable : conf.readOnly = false)
    {target : Nat} {d : NodeData} (h : conf.live? target = some d) (sec : d.kind = .sectionKind)
    {attributes : List Attribute}
    (good : ∀ a ∈ attributes, GoodName a.name) :
    ∃ conf', (copyAttributes target attributes).apply conf = (.ok (), conf') ∧
      Confined target conf conf' ∧
      conf'.shape target = (conf.shape target).extend (attributes.map Attribute.pair) [] := by
  induction attributes generalizing conf d with
  | nil => exact ⟨conf, rfl, .refl wf, by rw [List.map_nil, Shape.extend_nil]⟩
  | cons a attributes ih =>
    have first := good a List.mem_cons_self
    have step := Confined.addNode .attributeKind a.value wf h sec first
    obtain ⟨e, he, kind, -⟩ := step.kept d h
    obtain ⟨conf', run, confined, shape⟩ := ih step.wellFormed (step.readOnly.trans writable) he
      (kind.trans sec) fun x hx => good x (List.mem_cons_of_mem _ hx)
    refine ⟨conf', ?_, step.trans wf confined, ?_⟩
    · rw [copyAttributes, addAttribute, apply_bind_ok (apply_append writable h sec first)]
      exact run
    · rw [shape, shape_addNode_attribute wf h sec first, Shape.extend_extend]
      rfl

mutual

/-- A copied subtree comes last among the child sections. -/
lemma copySubtree_spec {conf : Configuration} (wf : conf.WellFormed)
    (writable : conf.readOnly = false) {parent : Nat} {d : NodeData}
    (h : conf.live? parent = some d) (sec : d.kind = .sectionKind) :
    ∀ {t : Subtree}, t.Named → ∃ conf', (copySubtree parent t).apply conf =
      (.ok conf.nodes.size, conf') ∧ Confined parent conf conf' ∧
      conf'.shape parent = (conf.shape parent).extend [] [t.shape]
  | .mk _ name value attributes children, ⟨good, goodAttributes, goodChildren⟩ => by
    -- The new section is filled by changes that are confined to it.
    have step := Confined.addNode .sectionKind value wf h sec good
    have new : (conf.addNode .sectionKind parent name value).live? conf.nodes.size = some _ :=
      live?_addNode_new h
    obtain ⟨conf₁, run₁, confined₁, shape₁⟩ := copyAttributes_spec step.wellFormed
      (step.readOnly.trans writable) new (kind_new true _) goodAttributes
    obtain ⟨e, he, kind, -⟩ := confined₁.kept _ new
    obtain ⟨conf₂, run₂, confined₂, shape₂⟩ := copySubtrees_spec confined₁.wellFormed
      (confined₁.readOnly.trans (step.readOnly.trans writable)) he
      (kind.trans (kind_new true _)) goodChildren
    have filled := confined₁.trans step.wellFormed confined₂
    obtain ⟨confined, shape⟩ := filled.fill wf h sec good
    refine ⟨conf₂, ?_, confined, ?_⟩
    · rw [copySubtree, addSection, apply_bind_ok (apply_append writable h sec good),
        apply_bind_ok run₁, apply_bind_ok run₂, apply_pure]
    · rw [shape, shape₂, shape₁, shape_addNode_new wf h sec good]
      simp [Shape.extend, Shape.name, Shape.value, Shape.attributes, Shape.children,
        Subtree.shape]

/-- Trees are copied below a section, behind what it holds. -/
lemma copySubtrees_spec {conf : Configuration} (wf : conf.WellFormed)
    (writable : conf.readOnly = false) {parent : Nat} {d : NodeData}
    (h : conf.live? parent = some d) (sec : d.kind = .sectionKind) :
    ∀ {ts : List Subtree}, Subtree.AllNamed ts → ∃ conf', (copySubtrees parent ts).apply conf =
      (.ok (), conf') ∧ Confined parent conf conf' ∧
      conf'.shape parent = (conf.shape parent).extend [] (Subtree.shapes ts)
  | [], _ => ⟨conf, rfl, .refl wf, by rw [Subtree.shapes, Shape.extend_nil]⟩
  | t :: ts, ⟨first, rest⟩ => by
    obtain ⟨conf₁, run₁, confined₁, shape₁⟩ := copySubtree_spec wf writable h sec first
    obtain ⟨e, he, kind, -⟩ := confined₁.kept d h
    obtain ⟨conf₂, run₂, confined₂, shape₂⟩ := copySubtrees_spec confined₁.wellFormed
      (confined₁.readOnly.trans writable) he (kind.trans sec) rest
    refine ⟨conf₂, ?_, confined₁.trans wf confined₂, ?_⟩
    · rw [copySubtrees, apply_bind_ok run₁]
      exact run₂
    · rw [shape₂, shape₁, Shape.extend_extend]
      rfl

end

/-- Copied content comes last in the lists of the target. -/
lemma copyContent_spec (wf : conf.WellFormed) (writable : conf.readOnly = false)
    {target : Nat} {d : NodeData} (h : conf.live? target = some d) (sec : d.kind = .sectionKind)
    {source : Subtree} (named : source.Named) :
    ∃ conf', (copyContent target source).apply conf = (.ok (), conf') ∧
      Confined target conf conf' ∧
      conf'.shape target =
        (conf.shape target).extend source.shape.attributes source.shape.children := by
  obtain ⟨_, name, value, attributes, children⟩ := source
  obtain ⟨-, goodAttributes, goodChildren⟩ := named
  obtain ⟨conf₁, run₁, confined₁, shape₁⟩ := copyAttributes_spec wf writable h sec goodAttributes
  obtain ⟨e, he, kind, -⟩ := confined₁.kept d h
  obtain ⟨conf₂, run₂, confined₂, shape₂⟩ := copySubtrees_spec confined₁.wellFormed
    (confined₁.readOnly.trans writable) he (kind.trans sec) goodChildren
  refine ⟨conf₂, ?_, confined₁.trans wf confined₂, ?_⟩
  · rw [copyContent, Subtree.attributes, apply_bind_ok run₁]
    exact run₂
  · rw [shape₂, shape₁, Shape.extend_extend, List.append_nil, List.nil_append]
    rfl

end Edit

/-! ## Subtrees of a configuration -/

/-- The subtree is that of a section of the configuration. -/
def TakenFrom (source : Configuration) (t : Subtree) : Prop :=
  t = source.subtree t.id ∧ ∃ e, source.live? t.id = some e ∧ e.kind = .sectionKind

/-- The tree below a node has its id. -/
lemma Configuration.id_subtree (conf : Configuration) (id : NodeId) :
    (conf.subtree id).id = id := by
  unfold subtree
  cases conf.nodes.size <;> rfl

/-- The subtree of a live section is taken from its configuration. -/
lemma takenFrom_subtree {source : Configuration} {id : Nat} {e : NodeData}
    (h : source.live? id = some e) (sec : e.kind = .sectionKind) :
    TakenFrom source (source.subtree id) := by
  have same := source.id_subtree id
  exact ⟨by rw [same], e, by rw [same, h], sec⟩

/-- What a subtree holds is what its section holds. -/
lemma TakenFrom.eq_mk {source : Configuration} {t : Subtree} (wfs : source.WellFormed)
    (h : TakenFrom source t) : ∃ d, source.live? t.id = some d ∧ d.kind = .sectionKind ∧
      t = .mk t.id d.name d.value ((d.entries .attributeKind).map source.attributeView)
        ((d.entries .sectionKind).map source.subtree) := by
  obtain ⟨whole, d, live, sec⟩ := h
  exact ⟨d, live, sec, whole.trans (subtree_eq wfs live)⟩

section

variable {source : Configuration} {t : Subtree} (wfs : source.WellFormed) (h : TakenFrom source t)

include wfs h

/-- A tree that is taken has the name of its node. -/
lemma TakenFrom.nameOf : source.nameOf t.id = t.name := by
  obtain ⟨d, live, -, eq⟩ := h.eq_mk wfs
  rw [Configuration.nameOf, live, eq]
  rfl

/-- A tree that is taken has the value of its node. -/
lemma TakenFrom.verbatim? : source.verbatim? t.id = t.value := by
  obtain ⟨d, live, -, eq⟩ := h.eq_mk wfs
  rw [Configuration.verbatim?, live, eq]
  rfl

/-- The attributes of a subtree are those of its section, in order. -/
lemma TakenFrom.map_attributesOf :
    (source.attributesOf t.id).map source.attributeView = t.attributes := by
  obtain ⟨d, live, -, eq⟩ := h.eq_mk wfs
  rw [attributesOf_eq live, eq]
  rfl

/-- The child sections of a subtree are those of its section, in order. -/
lemma TakenFrom.map_id_children : t.children.map Subtree.id = source.childrenOf t.id := by
  obtain ⟨d, live, -, eq⟩ := h.eq_mk wfs
  rw [childrenOf_eq live, eq, Subtree.children, List.map_map]
  exact (List.map_congr_left fun c _ => source.id_subtree c).trans (List.map_id _)

/-- The child sections of a subtree have its section as their parent. -/
lemma TakenFrom.parent {c : Subtree} (hc : c ∈ t.children) :
    source.parent? c.id = some t.id := by
  obtain ⟨d, live, -⟩ := h.eq_mk wfs
  have listed : c.id ∈ source.childrenOf t.id := by
    rw [← h.map_id_children wfs]
    exact List.mem_map_of_mem hc
  rw [childrenOf_eq live] at listed
  obtain ⟨e, live', -, parent⟩ := wfs.listed t.id d _ c.id live listed
  simp [parent?, live', parent, liveId?, live]

end

/-- The names of a subtree that is taken from a configuration are good. -/
lemma TakenFrom.named {source : Configuration} {t : Subtree} (wfs : source.WellFormed)
    (h : TakenFrom source t) : t.Named := by
  obtain ⟨whole, e, live, -⟩ := h
  rw [whole]
  exact named_subtree wfs live

/-- The child sections of a subtree are taken from the same configuration. -/
lemma TakenFrom.child {source : Configuration} {t : Subtree} (wfs : source.WellFormed)
    (h : TakenFrom source t) : ∀ c ∈ t.children, TakenFrom source c := by
  obtain ⟨d, live, -, eq⟩ := h.eq_mk wfs
  intro c hc
  rw [eq] at hc
  obtain ⟨x, hx, rfl⟩ := List.mem_map.1 hc
  obtain ⟨e, live', kind, -⟩ := wfs.listed t.id d _ x live hx
  exact takenFrom_subtree live' kind

end ConfTree
