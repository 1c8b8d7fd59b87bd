import ConfTree.Evaluation.Value
import ConfTree.Proofs.Operation.Reachable
import ConfTree.Proofs.Path.Spelling

/-!
# Canonical paths lead back

The canonical path of a live node leads to this node, from wherever it is followed
(`navigate_rootPath`). Each step is spelled so that it reads back as a segment, and this segment
leads from the parent to the node (`sectionStep_spells`, `attributeStep_spells`). The rest goes by
induction along the parents.
-/

namespace ConfTree

/-- The positions in the arena fit a machine word, which is what a position in a path is read as. -/
def Configuration.Addressable (conf : Configuration) : Prop := conf.nodes.size ≤ UInt64.size

namespace Path

open ConfTree.Configuration ConfTree.Text

variable {conf : Configuration}

/-! ## Reading a path of spelled steps -/

section

variable {parts : List (List Char)} {segments : List Segment}

/-- The characters of the canonical path with the given steps. -/
def pathChars (parts : List (List Char)) : List Char := '/' :: ['/'].intercalate parts

/-- A canonical path has no blanks around it. -/
lemma tight_pathChars (h : ∀ p ∈ parts, Tight p ∧ p ≠ []) : Tight (pathChars parts) := by
  have slash : Tight ['/'] := tight_singleton (by decide)
  induction parts with
  | nil => exact slash
  | cons p parts ih =>
    obtain ⟨tight, hne⟩ := h p List.mem_cons_self
    have first : Tight ('/' :: p) := tight_append slash tight (by simp) hne
    cases parts with
    | nil => simpa [pathChars] using first
    | cons q parts =>
      have rest := ih fun x hx => h x (List.mem_cons_of_mem _ hx)
      have cut : pathChars (p :: q :: parts) = ('/' :: p) ++ pathChars (q :: parts) := by
        simp [pathChars, List.intercalate_cons_cons]
      rw [cut]
      exact tight_append first rest (by simp) (by simp [pathChars])

/-- The segments of spelled steps are read one after the other. -/
lemma readSegments_spells (h : List.Forall₂ Spells parts segments) :
    readSegments parts = .ok segments := by
  induction h with
  | nil => rfl
  | cons first _ ih =>
    rw [readSegments, first.reads, ih]
    rfl

/-- What holds of the spelling of a step holds of each of them. -/
lemma forall_of_spells {P : List Char → Prop} (h : List.Forall₂ Spells parts segments)
    (hP : ∀ cs segment, Spells cs segment → P cs) : ∀ p ∈ parts, P p := by
  induction h with
  | nil => simp
  | cons first _ ih =>
    intro p hp
    rcases List.mem_cons.1 hp with rfl | hp
    · exact hP _ _ first
    · exact ih p hp

/-- A canonical path is read as its segments, from the root. -/
lemma read_pathChars (h : List.Forall₂ Spells parts segments) :
    Alternative.read (pathChars parts) = .ok ⟨true, segments⟩ := by
  have solid := forall_of_spells h fun _ _ s => s.slashes
  have trimmed : parts.map trimChars = parts := by
    rw [List.map_congr_left (forall_of_spells h fun _ _ s => s.tight.trimChars_eq), List.map_id']
  have kept : parts.filter (fun p => !p.isEmpty) = parts := by
    refine List.filter_eq_self.2 (forall_of_spells h fun cs _ s => ?_)
    simpa using s.ne_nil
  have cut : partsOf isSlash (pathChars parts) = parts := by
    cases parts with
    | nil => rfl
    | cons p rest =>
      -- The slash in front cuts off an empty part, which is dropped.
      have joined : Joined isSlash ([] :: p :: rest) (pathChars (p :: rest)) :=
        .cons (p := []) (c := '/') rfl (joined_intercalate _)
      rw [partsOf_joined joined separating_isSlash
        (List.forall_mem_cons.2 ⟨.nil, solid⟩), List.map_cons, trimmed]
      exact kept
  rw [Alternative.read_eq, cut, readSegments_spells h]
  rfl

/-- A canonical path is a single alternative. -/
lemma outline_pathChars (h : List.Forall₂ Spells parts segments) :
    Outline.read (pathChars parts) = ⟨false, [pathChars parts]⟩ := by
  have tight := tight_pathChars (forall_of_spells h fun _ _ s => ⟨s.tight, s.ne_nil⟩)
  have solid : Solid isBar (pathChars parts) :=
    (show Solid isBar ['/'] from .of_plain (by simp [isBar])).append <|
      (joined_intercalate parts).solid (fun _ => solid_slash)
        (forall_of_spells h fun _ _ s => s.bars)
  rw [Outline.read_optional, partsOf_solid solid, tight.trimChars_eq]
  all_goals
    rw [tight.trimChars_eq]
    simp [pathChars]

/-- A path of a single alternative, which is not required, leads where the alternative leads. -/
lemma navigate_single {valueOf : ValueOf Eval} {start : Option NodeId} {path : String}
    {cs : List Char}
    (h : Outline.read path.toList = ⟨false, [cs]⟩) :
    navigate conf valueOf start path = followAlternative conf valueOf start cs := by
  have whole : navigate conf valueOf start path =
      followAlternative conf valueOf start cs >>= pure := by
    rw [navigate, h]
    simp only [firstExisting, bind_assoc]
    refine bind_congr fun found => ?_
    cases found <;> rfl
  rw [whole, bind_pure]

/-- A text of a single alternative, which does not start at the root and is not required, leads
where the segments lead that its parts spell. -/
lemma navigate_relative {valueOf : ValueOf Eval} {text : List Char} (bars : Solid isBar text)
    (spells : List.Forall₂ Spells (partsOf isSlash text) segments)
    (relative : (trimChars text).head? ≠ some '/') (optional : (trimChars text).head? ≠ some '!')
    (solid : trimChars text ≠ []) (start : Option NodeId) :
    navigate conf valueOf start (String.ofList text) = follow conf valueOf start segments := by
  have outline : Outline.read (String.ofList text).toList = ⟨false, [trimChars text]⟩ := by
    rw [String.toList_ofList, Outline.read_optional optional, partsOf_solid bars solid]
  have read : Alternative.read (trimChars text) = .ok ⟨false, segments⟩ := by
    rw [Alternative.read_eq, ← partsOf_padded separating_isSlash (padded_trimChars text),
      readSegments_spells spells]
    simp only [relative, decide_false]
    rfl
  rw [navigate_single outline, followAlternative, read]
  rfl

/-- A path of spelled steps leads where its segments lead from the root. -/
lemma navigate_pathChars {valueOf : ValueOf Eval} (start : Option NodeId)
    (h : List.Forall₂ Spells parts segments) :
    navigate conf valueOf start (String.ofList (pathChars parts)) =
      follow conf valueOf (some Configuration.root) segments := by
  have outline : Outline.read (String.ofList (pathChars parts)).toList =
      ⟨false, [pathChars parts]⟩ := by
    rw [String.toList_ofList, outline_pathChars h]
  rw [navigate_single outline, followAlternative, read_pathChars h]
  rfl

end

/-! ## From a parent to its entries -/

/-- Segments are followed one after the other. -/
lemma follow_append {valueOf : ValueOf Eval} (node : Option NodeId) (first rest : List Segment) :
    follow conf valueOf node (first ++ rest) =
      follow conf valueOf node first >>= fun next => follow conf valueOf next rest := by
  induction first generalizing node with
  | nil =>
    cases node with
    | none => simp only [List.nil_append, follow, pure_bind]
    | some id => simp only [List.nil_append, follow, pure_bind]
  | cons segment first ih =>
    cases node with
    | none => simp only [List.cons_append, follow, pure_bind]
    | some id => simp only [List.cons_append, follow, bind_assoc, ih]

/-- The only member of a list is its head. -/
lemma eq_singleton_of_mem {id : NodeId} {ids : List NodeId} (h : id ∈ ids) (hl : ids.length ≤ 1) :
    ids = [id] := by
  match ids, h, hl with
  | [_], h, _ => rw [List.mem_singleton.1 h]

variable {id p : Nat} {d pd : NodeData}

/-- The step to a child section reads back as a segment that leads to it. -/
lemma sectionStep_spells (wf : conf.WellFormed) (fits : Addressable conf)
    (h : conf.live? id = some d) (hp : conf.live? p = some pd)
    (hm : id ∈ pd.entries .sectionKind) :
    ∃ segment, Spells (conf.sectionStep (pd.entries .sectionKind) id d.name).toList segment ∧
      ∀ valueOf : ValueOf Eval, step conf valueOf p segment = pure (some id) := by
  have short := wf.length_entries_le hp .sectionKind
  have good := wf.named id d h
  have children : conf.childrenOf p = pd.entries .sectionKind := childrenOf_eq hp
  have word : ∀ {ids : List NodeId}, id ∈ ids → ids.length ≤ (pd.entries .sectionKind).length →
      ids.idxOf id < UInt64.size := by
    intro ids hids hl
    have := List.idxOf_lt_length_of_mem hids
    rw [Addressable] at fits
    omega
  unfold sectionStep
  split
  · rename_i plain
    have same : id ∈ (pd.entries .sectionKind).filter (conf.hasName · d.name) :=
      List.mem_filter.2 ⟨hm, hasName_self h⟩
    dsimp only
    split
    · -- Several siblings have the name, so the node is counted among them.
      refine ⟨_, .counted plain good (word same (List.length_filter_le _ _)), fun valueOf => ?_⟩
      rw [step, candidates, children, List.getElem?_idxOf same]
    · rename_i single
      refine ⟨_, .named plain good, fun valueOf => ?_⟩
      rw [step, candidates, children, eq_singleton_of_mem same (by omega)]
      rfl
  · -- The name cannot stand in a path, so the position is among all siblings.
    refine ⟨_, .position (word hm (Nat.le_refl _)), fun valueOf => ?_⟩
    rw [step, candidates, children, List.getElem?_idxOf hm]

/-- The step to an attribute reads back as a segment that leads to it. -/
lemma attributeStep_spells (wf : conf.WellFormed) (fits : Addressable conf)
    (h : conf.live? id = some d) (hp : conf.live? p = some pd)
    (hm : id ∈ pd.entries .attributeKind) :
    ∃ segment, Spells (conf.attributeStep (pd.entries .attributeKind) id d.name).toList segment ∧
      ∀ valueOf : ValueOf Eval, step conf valueOf p segment = pure (some id) := by
  have attributes : conf.attributesOf p = pd.entries .attributeKind := attributesOf_eq hp
  unfold attributeStep
  split
  · rename_i plain
    rw [Bool.and_eq_true, beq_iff_eq] at plain
    obtain ⟨plain, single⟩ := plain
    have same : id ∈ (pd.entries .attributeKind).filter (conf.hasName · d.name) :=
      List.mem_filter.2 ⟨hm, hasName_self h⟩
    refine ⟨_, .attribute plain (wf.named id d h), fun valueOf => ?_⟩
    rw [step, keyAttribute?, attributes, ← List.head?_filter,
      eq_singleton_of_mem same (Nat.le_of_eq single)]
    rfl
  · have := wf.length_entries_le hp .attributeKind
    have := List.idxOf_lt_length_of_mem hm
    rw [Addressable] at fits
    refine ⟨_, .attributePosition (n := (pd.entries .attributeKind).idxOf id) (by omega),
      fun valueOf => ?_⟩
    rw [step, attributes, List.getElem?_idxOf hm]

end Path

namespace Configuration

open ConfTree.Path

variable {conf : Configuration}

/-- The steps to a live node are spelled so that their segments lead to it from the root. -/
lemma stepsWithin_spells (wf : conf.WellFormed) (fits : Addressable conf) {depth id : Nat}
    {d : NodeData} (h : conf.live? id = some d) (hd : id < depth) :
    ∃ steps segments, conf.stepsWithin depth id = some steps ∧
      List.Forall₂ Spells (steps.map String.toList) segments ∧
      ∀ valueOf : ValueOf Eval, follow conf valueOf (some Configuration.root) segments =
        pure (some id) := by
  induction depth generalizing id d with
  | zero => omega
  | succ depth ih =>
    rw [stepsWithin, h]
    cases hp : d.parent with
    | none =>
      -- Only the root has no parent.
      have top : id = Configuration.root := by
        by_contra hne
        obtain ⟨p, pd, hp', -⟩ := wf.owned id d h hne
        rw [hp] at hp'
        cases hp'
      subst top
      exact ⟨[], [], by simp only [hp], .nil, fun _ => rfl⟩
    | some p =>
      obtain ⟨lt, pd, hpd, -, -⟩ := wf.parent h hp
      have hm := wf.mem_entries h hp hpd
      -- The steps to the parent are spelled by induction, and one more leads on to the node.
      obtain ⟨steps, segments, hs, spelled, leads⟩ := ih hpd (Nat.lt_of_lt_of_le lt (by omega))
      obtain ⟨segment, spells, last⟩ : ∃ segment, Spells
          (if d.isSection then conf.sectionStep pd.children.toList id d.name
            else conf.attributeStep pd.attributes.toList id d.name).toList segment ∧
          ∀ valueOf : ValueOf Eval, step conf valueOf p segment = pure (some id) := by
        split
        · rename_i sec
          rw [NodeData.kind_eq_sectionKind.2 sec] at hm
          exact sectionStep_spells wf fits h hpd hm
        · rename_i sec
          rw [NodeData.kind_eq_attributeKind.2 (by simpa using sec)] at hm
          exact attributeStep_spells wf fits h hpd hm
      generalize ht : (if d.isSection then conf.sectionStep pd.children.toList id d.name
        else conf.attributeStep pd.attributes.toList id d.name) = text at spells
      refine ⟨steps ++ [text], segments ++ [segment], ?_, ?_, fun valueOf => ?_⟩
      · simp only [hp, hpd, hs, ht, Option.map_some]
      · rw [List.map_append]
        exact List.rel_append spelled (.cons spells .nil)
      · rw [follow_append, leads, pure_bind, follow, last, pure_bind]
        rfl

/-- The canonical path of a live node is spelled by steps whose segments lead to the node. -/
lemma rootPath_spells (wf : conf.WellFormed) (fits : Addressable conf) {id : Nat} {d : NodeData}
    (h : conf.live? id = some d) :
    ∃ parts segments, conf.rootPath id = String.ofList (pathChars parts) ∧
      List.Forall₂ Spells parts segments ∧
      ∀ valueOf : ValueOf Eval, follow conf valueOf (some Configuration.root) segments =
        pure (some id) := by
  obtain ⟨steps, segments, hs, spelled, leads⟩ := stepsWithin_spells wf fits h (Nat.lt_succ_self id)
  refine ⟨steps.map String.toList, segments, ?_, spelled, leads⟩
  rw [rootPath, hs, ← String.toList_inj]
  simp [pathChars, String.toList_intercalate]

/-- The canonical path of a live node leads to it, with whatever values the nodes have. -/
lemma navigate_rootPath_eq (wf : conf.WellFormed) (fits : Addressable conf) {id : Nat}
    {d : NodeData} (h : conf.live? id = some d) (valueOf : ValueOf Eval) (start : Option NodeId) :
    Path.navigate conf valueOf start (conf.rootPath id) = pure (some id) := by
  obtain ⟨parts, segments, text, spelled, leads⟩ := rootPath_spells wf fits h
  rw [text, navigate_pathChars start spelled, leads]

/-- The canonical path of a live node starts with a slash and has no blanks around it. -/
lemma rootPath_slash (wf : conf.WellFormed) (fits : Addressable conf) {id : Nat} {d : NodeData}
    (h : conf.live? id = some d) :
    ∃ cs, conf.rootPath id = String.ofList ('/' :: cs) ∧ Text.Tight ('/' :: cs) := by
  obtain ⟨parts, segments, text, spelled, -⟩ := rootPath_spells wf fits h
  exact ⟨_, text, tight_pathChars (forall_of_spells spelled fun _ _ s => ⟨s.tight, s.ne_nil⟩)⟩

/-- The canonical path of every live node leads to this node, from any node or none, and no two live
nodes have the same canonical path. -/
theorem navigate_rootPath (h : Reachable conf) (fits : Addressable conf) :
    (∀ (process : Host) (start : Option NodeId) (id : NodeId) (d : NodeData),
      conf.live? id = some d → conf.navigate process start (conf.rootPath id) = .ok (some id)) ∧
      ∀ (a b : NodeId) (ad bd : NodeData), conf.live? a = some ad → conf.live? b = some bd →
        conf.rootPath a = conf.rootPath b → a = b := by
  have back : ∀ (process : Host) (start : Option NodeId) (id : NodeId) (d : NodeData),
      conf.live? id = some d → conf.navigate process start (conf.rootPath id) = .ok (some id) := by
    intro process start id d live
    rw [Configuration.navigate, navigate_rootPath_eq h.wellFormed fits live]
    rfl
  refine ⟨back, fun a b ad bd ha hb same => ?_⟩
  have toA := back .bare none a ad ha
  have toB := back .bare none b bd hb
  rw [same, toB] at toA
  cases toA
  rfl

/-- Two sections of one name, which cannot stand in a path, and an attribute whose name looks
marked. -/
theorem navigate_rootPath_odd :
    let conf := (withRoot "base").operateAll
      [(.bare, .addSection 0 "a/b [x]" none), (.bare, .addSection 0 "A/B [x]" none),
        (.bare, .addAttribute 2 "$;|" none)]
    Reachable conf ∧ Addressable conf ∧
      conf.navigate .bare none (conf.rootPath 3) = .ok (some 3) := by
  intro conf
  have reach : Reachable conf :=
    (Reachable.withRoot "base").operateAll _ (by simp [Operation.others])
  have fits : Addressable conf := by
    unfold Addressable
    decide +kernel
  have live : (conf.live? 3).isSome = true := by decide +kernel
  obtain ⟨d, hd⟩ := Option.isSome_iff_exists.1 live
  exact ⟨reach, fits, (navigate_rootPath reach fits).1 .bare none 3 d hd⟩

end Configuration

end ConfTree
