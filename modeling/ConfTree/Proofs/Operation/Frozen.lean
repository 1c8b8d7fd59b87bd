import ConfTree.Proofs.Evaluation.SameTree
import ConfTree.Proofs.Operation.Reachable

/-!
# Frozen configurations

A configuration that was frozen keeps its tree, whatever is done to it afterwards: the primitive
edits and the copies are refused, and scripts and merges get no further than to their first edit. A
merge that succeeds on a frozen configuration had nothing to change, so it succeeds on a writable
copy too and leaves it as it is (`freeze_lasting`).
-/

namespace ConfTree

open ConfTree.Configuration Relation

/-! ## Refused edits -/

namespace Edit

variable {conf : Configuration} (frozen : conf.readOnly = true)

include frozen

/-- A frozen configuration refuses a new node. -/
lemma append_refused (kind : Kind) (parent : NodeId) (name : String) (value : Option String) :
    (append kind parent name value).apply conf = (.error .readOnly, conf) :=
  apply_refused frozen rfl

/-- A frozen configuration refuses to be cleared. -/
lemma clear_refused (id : NodeId) : (clear id).apply conf = (.error .readOnly, conf) :=
  apply_refused frozen rfl

/-- A frozen configuration refuses a value. -/
lemma setValue_refused (id : NodeId) (value : Option String) :
    (setValue id value).apply conf = (.error .readOnly, conf) :=
  apply_refused frozen rfl

/-- A frozen configuration refuses a copy. -/
lemma copySubtree_refused (parent : NodeId) (t : Subtree) :
    (copySubtree parent t).apply conf = (.error .readOnly, conf) := by
  obtain ⟨_, name, value, _, _⟩ := t
  rw [copySubtree, addSection, apply_bind, append_refused frozen]

/-- A frozen configuration refuses to have a section replaced. -/
lemma replaceBy_refused (target : NodeId) (t : Subtree) :
    (replaceBy target t).apply conf = (.error .readOnly, conf) := by
  rw [replaceBy, apply_bind, clear_refused frozen]

end Edit

namespace Configuration

/-- The six primitive edits are refused as the configuration is read-only, and nothing can be copied
into it. -/
structure RefusesEdits (conf : Configuration) : Prop where
  addSection : ∀ parent name value,
    (Edit.addSection parent name value).apply conf = (.error .readOnly, conf)
  addAttribute : ∀ parent name value,
    (Edit.addAttribute parent name value).apply conf = (.error .readOnly, conf)
  setValue : ∀ id value, (Edit.setValue id value).apply conf = (.error .readOnly, conf)
  rename : ∀ id name, (Edit.rename id name).apply conf = (.error .readOnly, conf)
  delete : ∀ id, (Edit.delete id).apply conf = (.error .readOnly, conf)
  clear : ∀ id, (Edit.clear id).apply conf = (.error .readOnly, conf)
  importNode : ∀ parent other node,
    ∃ e, (Edit.importNode parent other node).apply conf = (.error e, conf)
  importRoot : ∀ other, ∃ e, (Edit.importRoot other).apply conf = (.error e, conf)

/-- A frozen configuration refuses edits. -/
lemma refusesEdits {conf : Configuration} (frozen : conf.readOnly = true) : conf.RefusesEdits where
  addSection := Edit.append_refused frozen _
  addAttribute := Edit.append_refused frozen _
  setValue := Edit.setValue_refused frozen
  rename _ _ := Edit.apply_refused frozen rfl
  delete _ := Edit.apply_refused frozen rfl
  clear := Edit.clear_refused frozen
  importNode parent other node := by
    unfold Edit.importNode
    split
    · exact ⟨_, rfl⟩
    · split
      · exact ⟨_, Edit.copySubtree_refused frozen parent _⟩
      · exact ⟨_, Edit.append_refused frozen _ _ _ _⟩
  importRoot other := by
    refine ⟨.readOnly, ?_⟩
    rw [Edit.importRoot, Edit.apply_bind, Edit.clear_refused frozen]

end Configuration

/-! ## Edits that change nothing -/

namespace Edit

/-- If the edit succeeds on a frozen configuration, then it leaves it as it is, and comes to the
same on the configuration when that is writable. -/
def Idle {α : Type} (edit : Edit α) : Prop :=
  ∀ conf, conf.readOnly = true → ∀ a conf', edit.apply conf = (.ok a, conf') →
    conf' = conf ∧ edit.apply conf.unfrozen = (.ok a, conf.unfrozen)

namespace Idle

variable {α β : Type}

/-- To do nothing is idle. -/
lemma pure (a : α) : Idle (Pure.pure a : Edit α) := by
  rintro conf - _ _ ⟨⟩
  exact ⟨rfl, rfl⟩

/-- An edit that is refused does not succeed. -/
lemma refused {edit : Edit α}
    (h : ∀ {conf}, conf.readOnly = true → edit.apply conf = (.error .readOnly, conf)) :
    Idle edit := by
  intro conf frozen a conf' run
  rw [h frozen] at run
  cases run

/-- A look that sees the same in a writable configuration changes nothing. -/
lemma look {f : Configuration → Except ConfigError α} (same : ∀ conf, f conf.unfrozen = f conf) :
    Idle (look f) := by
  intro conf _ a conf' run
  rw [apply_look] at run
  obtain ⟨found, rfl⟩ := Prod.mk.inj run
  rw [apply_look, same, found]
  exact ⟨rfl, rfl⟩

/-- Idle edits one after the other are idle. -/
lemma bind {x : Edit α} {f : α → Edit β} (hx : Idle x) (hf : ∀ a, Idle (f a)) :
    Idle (x >>= f) := by
  intro conf frozen b conf' run
  obtain ⟨a, mid, first, rest⟩ := of_apply_bind_ok run
  obtain ⟨rfl, first'⟩ := hx conf frozen a mid first
  rw [apply_bind_ok first']
  exact hf a _ frozen b conf' rest

/-- What an edit does with the configuration may not depend on whether it is writable. -/
lemma get {f : Configuration → Edit α} (same : ∀ conf, f conf.unfrozen = f conf)
    (hf : ∀ conf, Idle (f conf)) : Idle (MonadState.get >>= f) := by
  intro conf frozen a conf' run
  rw [apply_bind_ok apply_get] at run ⊢
  rw [same]
  exact hf conf conf frozen a conf' run

/-- Either of two idle edits is idle. -/
lemma ite {c : Prop} [Decidable c] {x y : Edit α} (hx : Idle x) (hy : Idle y) :
    Idle (if c then x else y) := by
  split
  · exact hx
  · exact hy

/-- Appending is idle, as it fails on a frozen configuration. -/
lemma append (kind : Kind) (parent : NodeId) (name : String) (value : Option String) :
    Idle (append kind parent name value) := .refused fun frozen => append_refused frozen _ _ _ _

/-- Setting a value is idle, as it fails on a frozen configuration. -/
lemma setValue (id : NodeId) (value : Option String) : Idle (setValue id value) :=
  .refused fun frozen => setValue_refused frozen _ _

/-- Merging a value is idle. -/
lemma mergeValue (target : NodeId) (value : Option String) : Idle (mergeValue target value) :=
  .get (fun _ => rfl) fun _ => .ite (.setValue _ _) (.pure ())

/-- Merging attributes is idle. -/
lemma mergeAttributes (target : NodeId) (seen : List String) (attributes : List Attribute) :
    Idle (mergeAttributes target seen attributes) := by
  induction attributes generalizing seen with
  | nil => exact .pure ()
  | cons a attributes ih =>
    rw [Edit.mergeAttributes]
    refine .get (fun _ => rfl) fun conf => ?_
    dsimp only
    split
    · exact .ite (.bind (.setValue _ _) fun _ => ih _) (ih _)
    · exact .bind (.append _ _ _ _) fun _ => ih _

section

variable (process : Host) (rules : Rules) (source : Configuration)

mutual

/-- Merging a section is idle. -/
lemma mergeSection (target : NodeId) :
    ∀ t : Subtree, Idle (mergeSection process rules source target t)
  | .mk id name value attributes children => by
    rw [Edit.mergeSection]
    refine .bind (.look fun conf => (sameTree_unfrozen conf).policyOf process rules target)
      fun policy => ?_
    cases policy with
    | all =>
      exact .bind (.mergeValue _ _) fun _ => .bind (.mergeAttributes _ _ _) fun _ =>
        mergeSections target children
    | attributes => exact .bind (.mergeValue _ _) fun _ => .mergeAttributes _ _ _
    | sections => exact mergeSections target children
    | replace => exact .refused fun frozen => replaceBy_refused frozen _ _
    | stop => exact .pure ()
    | fail => exact .look fun conf => by rw [(sameTree_unfrozen conf).rootPath]

/-- Merging child sections is idle. -/
lemma mergeSections (target : NodeId) :
    ∀ ts : List Subtree, Idle (mergeSections process rules source target ts)
  | [] => .pure ()
  | t :: ts => by
    rw [Edit.mergeSections]
    refine .bind (.look fun conf =>
      (sameTree_unfrozen conf).matchOf process rules source target t.id t.name) fun paired => ?_
    cases paired with
    | some id => exact .bind (mergeSection id t) fun _ => mergeSections target ts
    | none =>
      exact .bind (.refused fun frozen => copySubtree_refused frozen _ _) fun _ =>
        mergeSections target ts

end

/-- A merge that succeeds on a frozen section changes nothing. -/
lemma overrideSection (target : NodeId) (node : Option NodeId) :
    Idle (overrideSection process rules source target node) := by
  refine .bind (.look fun _ => rfl) fun id => .bind (.look fun conf => ?_) fun _ =>
    .mergeSection process rules source target _
  rw [requireSection, requireSection, (sameTree_unfrozen conf).rootPath]
  rfl

end

end Idle

end Edit

/-! ## Operations on frozen configurations -/

namespace Configuration

variable {conf : Configuration}

/-- No operation makes a frozen configuration writable. -/
lemma readOnly_operate (frozen : conf.readOnly = true) (process : Host) (op : Operation) :
    (op.apply process conf).readOnly = true := by
  have edit : ∀ {α : Type} {e : Edit α}, Edit.Makes Change e →
      (e.apply conf).2.readOnly = true := by
    intro α e makes
    rw [eq_of_changes frozen (makes conf)]
    exact frozen
  cases op with
  | addSection | addAttribute => exact edit (.append _ _ _ _)
  | setValue => exact edit (.setValue _ _)
  | rename => exact edit (.rename _ _)
  | delete => exact edit (.delete _)
  | clear => exact edit (.clear _)
  | importNode => exact edit (.importNode _ _ _)
  | importRoot => exact edit (.importRoot _)
  | overrideBy => exact edit (.overrideBy _ _ _)
  | overrideSection => exact edit (.overrideSection _ _ _ _ _)
  | runScript limits result =>
    have makes := (Script.runRoot_composed process limits).makes ⟨conf, result, 0⟩
    exact (congrArg readOnly (eq_of_changes frozen makes.1)).trans frozen
  | takeResult limits source =>
    have makes := (Script.runRoot_composed process limits).makes ⟨source, conf, 0⟩
    exact (congrArg readOnly (eq_of_changes frozen makes.2)).trans frozen
  | freeze => rfl
  | resetModified | setEnvironment | setProvider | setTypeSearchPaths => exact frozen

/-- An operation leaves a frozen configuration as it is, but for the flags of its nodes. -/
lemma live?_operate (frozen : conf.readOnly = true) (process : Host) (op : Operation)
    (id : NodeId) : ((op.apply process conf).live? id).map NodeData.unmarked =
      (conf.live? id).map NodeData.unmarked := by
  rcases Operation.apply_cases process op conf with changes | same | reset
  · rw [eq_of_changes frozen changes]
  · rw [live?, live?, same]
  · rw [reset, live?_resetModified, Option.map_map]
    rfl

/-- Operations leave a frozen configuration frozen, and as it is but for the flags of its nodes. -/
lemma operateAll_frozen (frozen : conf.readOnly = true) (ops : List (Host × Operation)) :
    (conf.operateAll ops).readOnly = true ∧
      ∀ id, ((conf.operateAll ops).live? id).map NodeData.unmarked =
        (conf.live? id).map NodeData.unmarked := by
  induction ops generalizing conf with
  | nil => exact ⟨frozen, fun _ => rfl⟩
  | cons op ops ih =>
    obtain ⟨frozen', same⟩ := ih (readOnly_operate frozen op.1 op.2)
    exact ⟨frozen', fun id => (same id).trans (live?_operate frozen op.1 op.2 id)⟩

/-- After a configuration was frozen, whatever is done to it leaves it frozen, with the same live
nodes, which keep their names, values, parents and lists. It refuses every primitive edit as
read-only and every copy into it, and a merge of a source over it succeeds only if the same merge
over a writable copy of it succeeds and leaves the copy as it is. -/
theorem freeze_lasting (conf : Configuration) (ops : List (Host × Operation)) :
    let after := conf.freeze.operateAll ops
    after.readOnly = true ∧
      (∀ id, (after.live? id).map NodeData.unmarked = (conf.live? id).map NodeData.unmarked) ∧
      after.RefusesEdits ∧
      ∀ process rules source c,
        (Edit.overrideBy process rules source).apply after = (.ok (), c) →
          (Edit.overrideBy process rules source).apply after.unfrozen =
            (.ok (), after.unfrozen) := by
  intro after
  have start : conf.freeze.readOnly = true := rfl
  obtain ⟨frozen, same⟩ := operateAll_frozen start ops
  refine ⟨frozen, same, refusesEdits frozen, fun process rules source c run => ?_⟩
  exact (Edit.Idle.overrideSection process rules source _ _ after frozen () c run).2

/-- A frozen configuration that is edited, emptied and taken as the result of a script, all in vain.
A layer that repeats a part of it is merged over it without an error. -/
theorem freeze_lasting_merge :
    let conf := (withRoot "base").operateAll
      [(.bare, .addSection 0 "log" (some "on")), (.bare, .addAttribute 1 "level" (some "3"))]
    let layer := (withRoot "layer").operateAll [(.bare, .addSection 0 "LOG" (some "on"))]
    let after := conf.freeze.operateAll
      [(.bare, .setValue 1 none), (.bare, .clear 0), (.bare, .resetModified),
        (.bare, .takeResult .standard layer)]
    after.verbatim? 1 = some "on" ∧
      (Edit.overrideBy .bare .standard layer).apply after.unfrozen = (.ok (), after.unfrozen) := by
  intro conf layer after
  obtain ⟨-, -, -, merge⟩ := freeze_lasting conf
    [(.bare, .setValue 1 none), (.bare, .clear 0), (.bare, .resetModified),
      (.bare, .takeResult .standard layer)]
  have ok : ((Edit.overrideBy .bare .standard layer).apply after).1 = .ok () := by decide +kernel
  exact ⟨by decide +kernel, merge .bare .standard layer _ (Prod.ext ok rfl)⟩

end Configuration

end ConfTree
