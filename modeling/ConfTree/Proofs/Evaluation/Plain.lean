import ConfTree.Evaluation.Value
import Mathlib.Logic.Relation
import Mathlib.Tactic.Lemma

/-!
# Plain references

A reference is plain if it is blank, or a well-formed path that is neither required nor followed by
a call, and selects no section by a value. Where it leads does not hang on any value
(`navigate_plain`), so the references of a configuration with plain templates are the edges of a
fixed graph on its nodes, `Refers`.
-/

namespace ConfTree

open Relation

/-! ## Paths that look at no value -/

namespace Path

/-- The segment selects by no value. -/
def Segment.isPlain : Segment → Bool
  | .child _ (some (.matching ..)) => false
  | _ => true

/-- The text is a well-formed alternative without selectors by value. -/
def isPlainAlternative (cs : List Char) : Bool :=
  match Alternative.read cs with
  | .ok alternative => alternative.segments.all Segment.isPlain
  | .error _ => false

/-- The path requires no node, and all its alternatives are well-formed and without selectors by
value. -/
def isPlain (path : String) : Bool :=
  let outline := Outline.read path.toList
  !outline.required && outline.alternatives.all isPlainAlternative

variable (conf : Configuration)

/-- A plain segment leads to the same node however attributes are evaluated. -/
lemma step_plain (id : NodeId) {segment : Segment} (h : segment.isPlain = true) :
    ∃ next, ∀ valueOf : ValueOf Eval, step conf valueOf id segment = pure next := by
  unfold step
  split
  case h_7 => cases h
  all_goals exact ⟨_, fun _ => rfl⟩

/-- Segments lead to the same node by all evaluations of attributes by which each step does. -/
lemma follow_settled {ι : Type} {valueOf : ι → ValueOf Eval} {segments : List Segment}
    (steps : ∀ s ∈ segments, ∀ id, ∃ next, ∀ i, step conf (valueOf i) id s = pure next)
    (node : Option NodeId) :
    ∃ last, ∀ i, follow conf (valueOf i) node segments = pure last := by
  induction segments generalizing node with
  | nil =>
    cases node with
    | none => exact ⟨none, fun _ => rfl⟩
    | some id => exact ⟨some id, fun _ => rfl⟩
  | cons segment segments ih =>
    cases node with
    | none => exact ⟨none, fun _ => rfl⟩
    | some id =>
      obtain ⟨next, first⟩ := steps segment List.mem_cons_self id
      obtain ⟨last, rest⟩ := ih (fun s hs => steps s (List.mem_cons_of_mem _ hs)) next
      refine ⟨last, fun i => ?_⟩
      rw [follow, first, pure_bind, rest]

/-- Plain segments lead to the same node however attributes are evaluated. -/
lemma follow_plain {segments : List Segment} (h : ∀ s ∈ segments, s.isPlain = true)
    (node : Option NodeId) :
    ∃ last, ∀ valueOf : ValueOf Eval, follow conf valueOf node segments = pure last :=
  follow_settled conf (fun s hs id => step_plain conf id (h s hs)) node

/-- A plain alternative leads to the same node however attributes are evaluated. -/
lemma followAlternative_plain (start : Option NodeId) {cs : List Char}
    (h : isPlainAlternative cs = true) :
    ∃ last, ∀ valueOf : ValueOf Eval, followAlternative conf valueOf start cs = pure last := by
  unfold isPlainAlternative at h
  split at h
  · rename_i alternative read
    obtain ⟨last, leads⟩ := follow_plain conf (List.all_eq_true.1 h)
      (if alternative.fromRoot then some Configuration.root else start)
    refine ⟨last, fun valueOf => ?_⟩
    rw [followAlternative, read]
    exact leads valueOf
  · cases h

/-- Plain alternatives lead to the same node however attributes are evaluated. -/
lemma firstExisting_plain (start : Option NodeId) {alternatives : List (List Char)}
    (h : ∀ cs ∈ alternatives, isPlainAlternative cs = true) :
    ∃ found, ∀ valueOf : ValueOf Eval,
      firstExisting conf valueOf start alternatives = pure found := by
  induction alternatives with
  | nil => exact ⟨none, fun _ => rfl⟩
  | cons cs alternatives ih =>
    obtain ⟨last, first⟩ := followAlternative_plain conf start (h cs List.mem_cons_self)
    obtain ⟨found, rest⟩ := ih fun x hx => h x (List.mem_cons_of_mem _ hx)
    cases last with
    | some id => exact ⟨some id, fun valueOf => by rw [firstExisting, first, pure_bind]⟩
    | none => exact ⟨found, fun valueOf => by rw [firstExisting, first, pure_bind, rest]⟩

/-- A plain path leads to the same node, or to none, whatever the values are. -/
lemma navigate_plain (start : Option NodeId) {path : String} (h : isPlain path = true) :
    ∃ target, ∀ valueOf : ValueOf Eval, navigate conf valueOf start path = pure target := by
  rw [isPlain, Bool.and_eq_true, Bool.not_eq_true'] at h
  obtain ⟨found, leads⟩ := firstExisting_plain conf start (List.all_eq_true.1 h.2)
  refine ⟨found, fun valueOf => ?_⟩
  rw [navigate, leads, pure_bind, h.1]
  cases found <;> rfl

end Path

/-! ## References -/

/-- The reference is a plain path alone, or it is blank. -/
def Reference.isPlain : Reference → Bool
  | ⟨false, _, .node path, none⟩ => Path.isPlain path
  | ⟨false, _, .nothing, none⟩ => true
  | _ => false

/-- The piece is no open reference, and if it is a reference it is plain. -/
def Piece.isPlain : Piece → Bool
  | .char _ => true
  | .escape => true
  | .reference body => (Reference.read body).isPlain
  | .unclosed => false

namespace Configuration

/-- All references in the values of live nodes are closed, and each is plain or an escape. -/
def PlainTemplates (conf : Configuration) : Prop :=
  ∀ d ∈ conf.nodes.toList, d.deleted = false → ∀ raw ∈ d.value, ∀ p ∈ pieces raw.toList,
    p.isPlain = true

instance (conf : Configuration) : Decidable conf.PlainTemplates := by
  unfold PlainTemplates
  infer_instance

variable (process : Host) (conf : Configuration)

/-- The node that the path in the body of a reference leads to. -/
def targetOf (context : Option NodeId) (body : List Char) : Option NodeId :=
  match (Reference.read body).target with
  | .node path => (conf.navigate process context path).toOption.join
  | _ => none

/-- The nodes that the references in the value of a node lead to. -/
def referents (id : NodeId) : List NodeId :=
  match conf.live? id with
  | none => []
  | some d => (pieces (d.value.getD "").toList).filterMap fun
    | .reference body => conf.targetOf process (contextOf id d) body
    | _ => none

/-- The value of the first node has a reference that leads to the second. -/
def Refers (a b : NodeId) : Prop := b ∈ conf.referents process a

/-- References lead from the first node to the second, or they are one node. -/
def Reaches : NodeId → NodeId → Prop := ReflTransGen (conf.Refers process)

variable {process} {conf}

/-- A node refers to the targets of the references among the pieces of its value. -/
lemma refers_iff {a b : NodeId} : conf.Refers process a b ↔
    ∃ d raw body, conf.live? a = some d ∧ d.value = some raw ∧
      .reference body ∈ pieces raw.toList ∧
      conf.targetOf process (contextOf a d) body = some b := by
  unfold Refers referents
  cases live : conf.live? a with
  | none => simp
  | some d =>
    simp only [List.mem_filterMap, Option.some.injEq, exists_and_left, exists_eq_left']
    constructor
    · rintro ⟨p, hp, target⟩
      split at target
      · rename_i body
        cases value : d.value with
        | none =>
          rw [value] at hp
          cases hp
        | some raw =>
          rw [value] at hp
          exact ⟨raw, rfl, body, hp, target⟩
      · cases target
    · rintro ⟨raw, value, body, hp, target⟩
      rw [value]
      exact ⟨_, hp, target⟩

/-- The pieces of the value of a live node are plain. -/
lemma PlainTemplates.pieces (plain : conf.PlainTemplates) {id : NodeId} {d : NodeData}
    {raw : String} (live : conf.live? id = some d) (value : d.value = some raw) :
    ∀ p ∈ pieces raw.toList, p.isPlain = true := by
  simp only [live?, Option.filter_eq_some_iff, Bool.not_eq_true'] at live
  exact plain d (Array.mem_toList_iff.2 (Array.mem_of_getElem? live.1)) live.2 raw value

end Configuration

/-- A plain reference stands for the value of its target, or for nothing if it has none. -/
lemma Reference.resolve_plain {process : Host} {conf : Configuration} {valueOf : Path.ValueOf Eval}
    {context : Option NodeId} {body : List Char} (h : (Reference.read body).isPlain = true) :
    (Reference.read body).resolve process conf valueOf context =
      match conf.targetOf process context body with
      | none => pure ""
      | some id => do
        let value ← valueOf id
        return value.getD "" := by
  unfold Configuration.targetOf
  revert h
  rcases Reference.read body with ⟨required, text, target, call⟩
  intro h
  unfold isPlain at h
  split at h
  · rename_i path e
    obtain ⟨rfl, rfl, rfl, rfl⟩ := Reference.mk.inj e
    obtain ⟨target, leads⟩ := Path.navigate_plain conf context h
    have found : conf.navigate process context path = .ok target := by
      rw [Configuration.navigate, leads]
      rfl
    simp only [Reference.resolve, Target.input, leads, found, pure_bind, Bool.false_and,
      Bool.false_eq_true, if_false]
    cases target with
    | none => rfl
    | some id =>
      simp only [bind_assoc, pure_bind]
      rfl
  · rename_i e
    obtain ⟨rfl, rfl, rfl, rfl⟩ := Reference.mk.inj e
    rfl
  · cases h

/-- A text that opens no reference has no pieces but characters. -/
lemma pieces_of_plain {cs : List Char} (h : hasReference cs = false) :
    pieces cs = cs.map .char := by
  unfold pieces
  fun_induction hasReference cs with
  | case1 => cases h
  | case2 c cs opens ih =>
    rw [piecesFrom, ih h, List.map_cons]
    exact opens
  | case3 => rfl

/-! ## Literal values -/

section

variable {conf : Configuration} {id : NodeId}
  (plain : ∀ raw ∈ conf.verbatim? id, hasReference raw.toList = false)

include plain

/-- A value without references is not evaluated. -/
lemma nodeValueWithin_literal (process : Host) (room : Nat) :
    nodeValueWithin Eval process conf room id = pure (conf.verbatim? id) := by
  rw [nodeValueWithin.eq_def]
  unfold Configuration.verbatim? at plain ⊢
  cases live : conf.live? id with
  | none => rfl
  | some d =>
    cases value : d.value with
    | none => simp [value]
    | some raw =>
      have := plain raw (by simp [live, value])
      simp [value, this]

/-- A text without references is the value of its node. -/
lemma nodeValue_literal (process : Host) :
    nodeValue Eval process conf id = pure (conf.verbatim? id) := by
  rw [nodeValue]
  simp only [nodeValueWithin_literal plain]
  rfl

/-- A value without references is the verbatim one. -/
lemma Configuration.value?_literal (process : Host) :
    conf.value? process id = .ok (conf.verbatim? id) := by
  rw [value?, nodeValue_literal plain]
  rfl

end

section

variable {process : Host} {conf : Configuration} {valueOf : Path.ValueOf Eval}
  {context : Option NodeId} {text : String}

/-- Characters stand before what the pieces behind them are joined to. -/
lemma joinPieces_append (cs : List Char) (ps : List Piece) :
    joinPieces process conf valueOf context text (cs.map .char ++ ps) =
      joinPieces process conf valueOf context text ps >>= fun rest => pure (cs ++ rest) := by
  induction cs with
  | nil => exact (bind_pure _).symm
  | cons c cs ih =>
    simp only [List.map_cons, List.cons_append, joinPieces, ih, bind_assoc, pure_bind]

/-- Characters are joined as they are. -/
lemma joinPieces_chars (cs : List Char) :
    joinPieces process conf valueOf context text (cs.map .char) = pure cs := by
  have joined : joinPieces process conf valueOf context text (cs.map .char ++ []) = _ :=
    joinPieces_append cs []
  rwa [List.append_nil, joinPieces, pure_bind, List.append_nil] at joined

end

/-- A text without references is not evaluated. -/
lemma Configuration.evaluate_literal (process : Host) (conf : Configuration)
    (node : Option NodeId) {text : String} (plain : hasReference text.toList = false) :
    conf.evaluate process node text = .ok text := by
  rw [evaluate, evaluateText, pieces_of_plain plain, joinPieces_chars, pure_bind,
    String.ofList_toList]
  rfl

end ConfTree
