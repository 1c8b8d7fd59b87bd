import ConfTree.Merge.Match
import ConfTree.Proofs.Tree.Lookup

/-!
# What evaluation depends on

Two configurations are the `SameTree` if their live nodes differ in their flags at most, and if they
have the same environment and the same macros. All that is read from a tree is the same in both of
them: paths, values, and with these the policies and the pairs of a merge (`SameTree.value?`,
`SameTree.policyOf`, `SameTree.matchOf`).
-/

namespace ConfTree

/-- The node as it is but for its flag. -/
def NodeData.unmarked (d : NodeData) : NodeData := { d with modified := false }

namespace Configuration

/-- The live nodes are the same but for their flags, and references have the same answers. -/
structure SameTree (conf conf' : Configuration) : Prop where
  live : ∀ id,
    (conf'.live? id).map NodeData.unmarked = (conf.live? id).map NodeData.unmarked
  environment : conf'.environment = conf.environment
  provider : conf'.provider = conf.provider

/-- A configuration is the same tree when it is open to edits. -/
lemma sameTree_unfrozen (conf : Configuration) : SameTree conf conf.unfrozen :=
  ⟨fun _ => rfl, rfl, rfl⟩

namespace SameTree

variable {conf conf' : Configuration} (h : SameTree conf conf')

include h

/-! ## Nodes -/

/-- What does not look at the flag of a node is the same in both trees. -/
lemma map_live {α : Type} {f : NodeData → α} (blind : ∀ d, f d.unmarked = f d) (id : NodeId) :
    (conf'.live? id).map f = (conf.live? id).map f := by
  have same := congrArg (Option.map f) (h.live id)
  simp only [Option.map_map, Function.comp_def, blind] at same
  exact same

/-- A node is live in neither tree, or in both of them with no difference but the flag. -/
lemma live_cases (id : NodeId) :
    (conf.live? id = none ∧ conf'.live? id = none) ∨
      ∃ d flag, conf.live? id = some d ∧ conf'.live? id = some { d with modified := flag } := by
  have same := h.live id
  cases live : conf.live? id with
  | none =>
    rw [live, Option.map_none, Option.map_eq_none_iff] at same
    exact .inl ⟨rfl, same⟩
  | some d =>
    rw [live, Option.map_some, Option.map_eq_some_iff] at same
    obtain ⟨e, live', same⟩ := same
    refine .inr ⟨d, e.modified, rfl, ?_⟩
    obtain ⟨_, _, _, _, _, _⟩ := d
    obtain ⟨_, _, _, _, _, _⟩ := e
    cases same
    exact live'

/-- The same nodes are live. -/
lemma liveId? : conf'.liveId? = conf.liveId? :=
  funext fun id => h.map_live (fun _ => rfl) id

/-- Nodes have the same parents. -/
lemma parent (id : NodeId) : (conf'.live? id).bind (·.parent) =
    (conf.live? id).bind (·.parent) := by
  obtain ⟨dead, dead'⟩ | ⟨d, flag, live, live'⟩ := h.live_cases id
  · rw [dead, dead']
  · rw [live, live']
    rfl

/-- Nodes have the same child sections. -/
lemma childrenOf (id : NodeId) : conf'.childrenOf id = conf.childrenOf id :=
  congrArg (Option.getD · []) (h.map_live (fun _ => rfl) id)

/-- Nodes have the same attributes. -/
lemma attributesOf (id : NodeId) : conf'.attributesOf id = conf.attributesOf id :=
  congrArg (Option.getD · []) (h.map_live (fun _ => rfl) id)

/-- Nodes have the same names. -/
lemma hasName : conf'.hasName = conf.hasName := by
  funext id name
  rw [Configuration.hasName, Configuration.hasName]
  obtain ⟨dead, dead'⟩ | ⟨d, flag, live, live'⟩ := h.live_cases id
  · rw [dead, dead']
  · rw [live, live']

/-- Nodes are found by the same names. -/
lemma isNamed : conf'.isNamed = conf.isNamed := by
  funext id name
  rw [Configuration.isNamed, Configuration.isNamed, h.hasName]

/-- The same attribute is found by its name. -/
lemma attribute? (id : NodeId) (name : String) :
    conf'.attribute? id name = conf.attribute? id name := by
  rw [Configuration.attribute?, Configuration.attribute?, h.attributesOf, h.isNamed]

/-! ## Canonical paths -/

/-- The last step of a path to a section is the same. -/
lemma sectionStep (siblings : List NodeId) (id : NodeId) (name : String) :
    conf'.sectionStep siblings id name = conf.sectionStep siblings id name := by
  rw [Configuration.sectionStep, Configuration.sectionStep, h.hasName]

/-- The last step of a path to an attribute is the same. -/
lemma attributeStep (siblings : List NodeId) (id : NodeId) (name : String) :
    conf'.attributeStep siblings id name = conf.attributeStep siblings id name := by
  rw [Configuration.attributeStep, Configuration.attributeStep, h.hasName]

/-- The steps from the root are the same. -/
lemma stepsWithin (depth : Nat) (id : NodeId) :
    conf'.stepsWithin depth id = conf.stepsWithin depth id := by
  induction depth generalizing id with
  | zero => rfl
  | succ depth ih =>
    rw [Configuration.stepsWithin, Configuration.stepsWithin]
    obtain ⟨dead, dead'⟩ | ⟨d, flag, live, live'⟩ := h.live_cases id
    · rw [dead, dead']
    · rw [live, live']
      dsimp only
      cases d.parent with
      | none => rfl
      | some parent =>
        dsimp only
        obtain ⟨dead, dead'⟩ | ⟨p, flag, live, live'⟩ := h.live_cases parent
        · rw [dead, dead']
        · rw [live, live', ih parent]
          dsimp only
          rw [h.sectionStep, h.attributeStep]
          rfl

/-- Nodes have the same root paths. -/
lemma rootPath : conf'.rootPath = conf.rootPath := by
  funext id
  rw [Configuration.rootPath, Configuration.rootPath, h.stepsWithin]

/-- Nodes, or none, have the same root paths. -/
lemma pathOf (node : Option NodeId) : conf'.pathOf node = conf.pathOf node := by
  rw [Configuration.pathOf, Configuration.pathOf, h.rootPath]

/-! ## Navigation -/

section

variable (valueOf : Path.ValueOf Eval)

/-- A selector looks at the same attribute. -/
lemma keyAttribute? (id : NodeId) (key : String) :
    Path.keyAttribute? conf' id key = Path.keyAttribute? conf id key := by
  rw [Path.keyAttribute?, Path.keyAttribute?, h.attributesOf, h.hasName]

/-- A selector by value leads to the same section. -/
lemma firstMatching (key wanted : String) (ids : List NodeId) :
    Path.firstMatching conf' valueOf key wanted ids =
      Path.firstMatching conf valueOf key wanted ids := by
  induction ids with
  | nil => rfl
  | cons id ids ih => rw [Path.firstMatching, Path.firstMatching, h.keyAttribute?, ih]

/-- A segment chooses from the same sections. -/
lemma candidates (id : NodeId) (name : Option String) :
    Path.candidates conf' id name = Path.candidates conf id name := by
  rw [Path.candidates.eq_def, Path.candidates.eq_def, h.childrenOf, h.hasName]

/-- A step leads to the same node. -/
lemma step (id : NodeId) (segment : Path.Segment) :
    Path.step conf' valueOf id segment = Path.step conf valueOf id segment := by
  rw [Path.step.eq_def, Path.step.eq_def, h.liveId?, h.parent, h.attributesOf]
  split <;> simp only [h.keyAttribute?, h.candidates, h.firstMatching]

/-- Segments lead to the same node. -/
lemma follow (start : Option NodeId) (segments : List Path.Segment) :
    Path.follow conf' valueOf start segments = Path.follow conf valueOf start segments := by
  induction segments generalizing start with
  | nil => cases start <;> rfl
  | cons segment segments ih =>
    cases start with
    | none => rfl
    | some id => simp only [Path.follow, h.step, ih]

/-- The same alternative is the first to lead to a node. -/
lemma firstExisting (start : Option NodeId) (alternatives : List (List Char)) :
    Path.firstExisting conf' valueOf start alternatives =
      Path.firstExisting conf valueOf start alternatives := by
  induction alternatives with
  | nil => rfl
  | cons cs rest ih =>
    simp only [Path.firstExisting, Path.followAlternative, h.follow, ih]

/-- A path leads to the same node. -/
lemma navigate (start : Option NodeId) (path : String) :
    Path.navigate conf' valueOf start path = Path.navigate conf valueOf start path := by
  simp only [Path.navigate, h.firstExisting]

end

/-! ## Values -/

section

variable (process : Host)

/-- A reference is resolved alike. -/
lemma resolve (valueOf : Path.ValueOf Eval) (context : Option NodeId) (r : Reference) :
    r.resolve process conf' valueOf context = r.resolve process conf valueOf context := by
  have input : r.target.input process conf' valueOf context =
      r.target.input process conf valueOf context := by
    rw [Target.input.eq_def, Target.input.eq_def, h.environment]
    simp only [h.navigate]
  rw [Reference.resolve, Reference.resolve, input, h.pathOf, h.provider]

/-- Pieces are joined alike. -/
lemma joinPieces (valueOf : Path.ValueOf Eval) (context : Option NodeId) (text : String)
    (ps : List Piece) :
    joinPieces process conf' valueOf context text ps =
      joinPieces process conf valueOf context text ps := by
  induction ps with
  | nil => rfl
  | cons p ps ih =>
    cases p with
    | unclosed => rfl
    | _ => simp only [ConfTree.joinPieces, h.resolve, ih]

/-- A text is evaluated alike. -/
lemma evaluateText (valueOf : Path.ValueOf Eval) (context : Option NodeId) (text : String) :
    evaluateText process conf' valueOf context text =
      evaluateText process conf valueOf context text := by
  rw [ConfTree.evaluateText, ConfTree.evaluateText, h.joinPieces]

/-- Values are the same in both trees, in whatever room. -/
lemma nodeValueWithin (room : Nat) :
    nodeValueWithin Eval process conf' room = nodeValueWithin Eval process conf room := by
  have cycle : ∀ stack id, cyclePaths conf' stack id = cyclePaths conf stack id := by
    intro stack id
    rw [cyclePaths, cyclePaths, h.rootPath]
  induction room with
  | zero =>
    funext id
    rw [nodeValueWithin.eq_def, nodeValueWithin.eq_def Eval process conf]
    obtain ⟨dead, dead'⟩ | ⟨d, flag, live, live'⟩ := h.live_cases id
    · rw [dead, dead']
    · rw [live, live']
      simp only [cycle, h.rootPath]
  | succ room ih =>
    funext id
    rw [nodeValueWithin.eq_def, nodeValueWithin.eq_def Eval process conf]
    obtain ⟨dead, dead'⟩ | ⟨d, flag, live, live'⟩ := h.live_cases id
    · rw [dead, dead']
    · rw [live, live']
      simp only [cycle, ih, h.evaluateText]
      rfl

/-- Nodes have the same values. -/
lemma value? (id : NodeId) : conf'.value? process id = conf.value? process id := by
  simp only [Configuration.value?, nodeValue, h.nodeValueWithin]

/-- Nodes, or none, have the same values. -/
lemma valueOf? (node : Option NodeId) : conf'.valueOf? process node =
    conf.valueOf? process node := by
  cases node with
  | none => rfl
  | some id => exact h.value? process id

/-! ## Merges -/

variable (rules : Rules)

/-- Sections have the same override policy. -/
lemma policyOf (id : NodeId) : conf'.policyOf process rules id =
    conf.policyOf process rules id := by
  rw [Configuration.policyOf, Configuration.policyOf, h.attribute?, h.valueOf?, h.rootPath]

/-- The same section is the first with a key. -/
lemma firstWithKey (wanted : String) (ids : List NodeId) :
    conf'.firstWithKey process rules wanted ids = conf.firstWithKey process rules wanted ids := by
  induction ids with
  | nil => rfl
  | cons id ids ih =>
    rw [Configuration.firstWithKey, Configuration.firstWithKey, h.attribute?, h.valueOf?, ih]

/-- A section of the source matches the same section. -/
lemma matchOf (source : Configuration) (target id : NodeId) (name : String) :
    conf'.matchOf process rules source target id name =
      conf.matchOf process rules source target id name := by
  simp only [Configuration.matchOf, h.childrenOf, h.isNamed, h.firstWithKey]

end

end SameTree

end Configuration

end ConfTree
