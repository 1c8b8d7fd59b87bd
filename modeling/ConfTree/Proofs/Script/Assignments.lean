import ConfTree.Proofs.Script.Budget

/-!
# Assignments

A run sets values in its script and does nothing else to it. Where it does so is told by the places
that it comes to: a place is a task in a block of some depth with the state in which it starts, and
`Calls` says, rule by rule of `Runs`, to which places a run goes on from a place. However a task
ends, its script is `Revalued`: it differs in values and flags at most, and only on nodes that an
assignment of the task addresses (`Runs.revalued`). So the lists of child sections that a run holds
stay those of its script, whatever is assigned meanwhile (`execute_revalued`).
-/

namespace ConfTree

/-! ## Trees with other values -/

/-- The node but for its value and its flag. -/
def NodeData.skeleton (d : NodeData) : NodeData := { d with value := none, modified := false }

namespace Configuration

/-- The configuration but for the values and the flags of its nodes, deleted ones among them. -/
def skeleton (conf : Configuration) : Configuration :=
  { conf with nodes := conf.nodes.map NodeData.skeleton }

/-- The second configuration differs from the first in values and flags at most, and that only on
some of the nodes. -/
structure Revalued (on : NodeId → Prop) (conf conf' : Configuration) : Prop where
  skeleton : conf'.skeleton = conf.skeleton
  others : ∀ id, ¬ on id → conf'.nodes[id]? = conf.nodes[id]?

variable {on on' : NodeId → Prop} {conf conf' conf'' : Configuration}

/-- Without assignments nothing has another value. -/
lemma Revalued.refl : Revalued on conf conf := ⟨rfl, fun _ _ => rfl⟩

/-- Assignments one after the other give values to the same nodes. -/
lemma Revalued.trans (h : Revalued on conf conf') (h' : Revalued on conf' conf'') :
    Revalued on conf conf'' :=
  ⟨h'.skeleton.trans h.skeleton, fun id off => (h'.others id off).trans (h.others id off)⟩

/-- More nodes may be given values. -/
lemma Revalued.mono (h : Revalued on conf conf') (wider : ∀ id, on id → on' id) :
    Revalued on' conf conf' :=
  ⟨h.skeleton, fun id off => h.others id fun within => off (wider id within)⟩

/-- A node is live in both trees or in neither of them, with the same skeleton. -/
lemma live?_of_skeleton (h : conf'.skeleton = conf.skeleton) (id : NodeId) :
    (conf'.live? id).map NodeData.skeleton = (conf.live? id).map NodeData.skeleton := by
  have live (c : Configuration) : (c.live? id).map NodeData.skeleton = c.skeleton.live? id := by
    simp only [live?, Configuration.skeleton, Array.getElem?_map, Option.filter_map]
    rfl
  rw [live, live, h]

/-- Setting a value is a change of values on one node. -/
lemma revalued_replaceValue {id : NodeId} (value : Option String) (h : on id) :
    Revalued on conf (conf.replaceValue id value) where
  skeleton := by
    have nodes : (conf.replaceValue id value).nodes.map NodeData.skeleton =
        conf.nodes.map NodeData.skeleton := by
      refine Array.ext (by simp [replaceValue, modifyNode]) fun i _ _ => ?_
      simp only [replaceValue, modifyNode, Array.getElem_map, Array.getElem_modify]
      split <;> rfl
    exact congrArg (fun nodes => { conf with nodes := nodes }) nodes
  others other off := by
    have distinct : id ≠ other := fun same => off (same ▸ h)
    simp only [replaceValue, modifyNode, Array.getElem?_modify, if_neg distinct]

/-- Setting a value fails and changes nothing, or gives the value to a live node. -/
lemma setValue_cases (id : NodeId) (value : Option String) (conf : Configuration) :
    (∃ e, (Edit.setValue id value).apply conf = (.error e, conf)) ∨
      ∃ d, conf.live? id = some d ∧
        (Edit.setValue id value).apply conf = (.ok (), conf.replaceValue id value) := by
  cases check : (conf.checkWritable >>= fun _ => conf.requireLive id >>= fun _ => pure ()) with
  | error e => exact .inl ⟨e, Edit.apply_checked_error check⟩
  | ok u =>
    obtain ⟨-, -, live⟩ := bind_eq_ok check
    obtain ⟨d, live, -⟩ := bind_eq_ok live
    exact .inr ⟨d, requireLive_ok.1 live, Edit.apply_checked_ok check⟩

end Configuration

namespace Script

open ConfTree.Configuration Relation

variable {process : Host} {limits : Limits}

/-! ## The places of a run -/

/-- A task in a block of the given depth, with the state in which it starts. -/
structure Place where
  depth : Nat
  task : Task
  progress : Progress

section

variable (process : Host) (limits : Limits)

/-- A run goes on from a place to another one. -/
inductive Calls : Place → Place → Prop where
  -- Blocks
  | block {depth id target p} :
    depth ≤ limits.depth →
    Calls ⟨depth, .block id target, p⟩ ⟨depth, .visits none (p.source.childrenOf id) target, p⟩
  | first {depth before id ids target p} :
    Calls ⟨depth, .visits before (id :: ids) target, p⟩ ⟨depth, .visit before id target, p⟩
  | next {depth before id ids target p log after p'} :
    Runs process limits depth (.visit before id target) p log (.ok after) p' →
    Calls ⟨depth, .visits before (id :: ids) target, p⟩ ⟨depth, .visits after ids target, p'⟩
  -- Visits
  | control {depth before id target p d control} :
    p.steps + 1 ≤ limits.steps →
    p.source.live? id = some d →
    Control.ofName? d.name = some control →
    Calls ⟨depth, .visit before id target, p⟩ ⟨depth, .act control before id target, p.tick⟩
  | ordinary {depth before id target p d} :
    p.steps + 1 ≤ limits.steps →
    p.source.live? id = some d →
    Control.ofName? d.name = none →
    isReserved d.name = false →
    Calls ⟨depth, .visit before id target, p⟩ ⟨depth, .copy id target, p.tick⟩
  -- Copies
  | copied {depth id target p header copied result result'} :
    isScriptOnly process p.source id = .ok false →
    headerOf process p.source id = .ok header →
    (Edit.addSection target header.name header.value).apply p.result = (.ok copied, result) →
    (appendAttributes copied header.attributes).apply result = (.ok (), result') →
    Calls ⟨depth, .copy id target, p⟩
      ⟨depth + 1, .block id copied, { p with result := result' }⟩
  -- Instructions
  | taken {depth before id target p} :
    holds process p.source id = .ok true →
    Calls ⟨depth, .act .whenTrue before id target, p⟩ ⟨depth + 1, .block id target, p⟩
  | otherwise {depth id target p} :
    Calls ⟨depth, .act .otherwise (some false) id target, p⟩ ⟨depth + 1, .block id target, p⟩
  | loop {depth before id target p} :
    Calls ⟨depth, .act .repeatWhile before id target, p⟩ ⟨depth, .rounds id target, p⟩
  | call {depth before id target p callee} :
    calleeOf process p.source id = .ok callee →
    Calls ⟨depth, .act .call before id target, p⟩ ⟨depth + 1, .block callee target, p⟩
  -- Loops
  | round {depth id target p} :
    holds process p.source id = .ok true →
    p.steps + 1 ≤ limits.steps →
    Calls ⟨depth, .rounds id target, p⟩ ⟨depth + 1, .block id target, p.tick⟩
  | again {depth id target p log after p'} :
    holds process p.source id = .ok true →
    p.steps + 1 ≤ limits.steps →
    Runs process limits (depth + 1) (.block id target) p.tick log (.ok after) p' →
    Calls ⟨depth, .rounds id target, p⟩ ⟨depth, .rounds id target, p'⟩

/-- The run of a script into a result comes to a place. -/
def ComesTo (source result : Configuration) (place : Place) : Prop :=
  ∃ header result',
    headerOf process source root = .ok header ∧
    (prepare header).apply result = (.ok (), result') ∧
    ReflTransGen (Calls process limits) ⟨0, .block root root, ⟨source, result', 0⟩⟩ place

end

/-- The place is an assignment whose path leads to a node. -/
def Place.Addresses (process : Host) (place : Place) (node : NodeId) : Prop :=
  ∃ before id target value, place.task = .act .assign before id target ∧
    assignmentOf process place.progress.source id = .ok (node, value)

/-! ## What a run does to its script -/

/-- The node is addressed by an assignment that the run from a place on comes to. -/
def Place.Assigns (process : Host) (limits : Limits) (place : Place) (node : NodeId) : Prop :=
  ∃ place', ReflTransGen (Calls process limits) place place' ∧ place'.Addresses process node

/-- What a place assigns is assigned by the place that calls it. -/
lemma Calls.assigns {place place' : Place} (h : Calls process limits place place')
    (node : NodeId) (assigned : place'.Assigns process limits node) :
    place.Assigns process limits node := by
  obtain ⟨place'', calls, addressed⟩ := assigned
  exact ⟨place'', .head h calls, addressed⟩

/-- However a task ends, the script differs in values and flags at most, and only where an
assignment of the task addresses it. -/
lemma Runs.revalued {depth : Nat} {task : Task} {p p' : Progress} {log : List Event} {out : Outcome}
    (h : Runs process limits depth task p log out p') :
    Revalued (Place.Assigns process limits ⟨depth, task, p⟩) p.source p'.source := by
  induction h with
  | tooDeep | visited | visitSpent | gone | unknown => exact .refl
  | noFlag | skipped | noHeader | refused | noAttributes => exact .refl
  | noCondition | notTaken | orphan | done | noAssignment | noCallee => exact .refl
  | noLoopCondition | roundsEnd | roundSpent => exact .refl
  | block shallow _ ih => exact ih.mono (Calls.block shallow).assigns
  | halted _ ih => exact ih.mono Calls.first.assigns
  | next visit _ ih ih' =>
    exact (ih.mono Calls.first.assigns).trans (ih'.mono (Calls.next visit).assigns)
  | control within live control _ ih => exact ih.mono (Calls.control within live control).assigns
  | ordinary within live plain free _ ih =>
    exact ih.mono (Calls.ordinary within live plain free).assigns
  | copied flag head add attributes _ ih =>
    exact ih.mono (Calls.copied flag head add attributes).assigns
  | taken condition _ ih => exact ih.mono (Calls.taken condition).assigns
  | otherwise _ ih => exact ih.mono Calls.otherwise.assigns
  | loop _ ih => exact ih.mono Calls.loop.assigns
  | call found _ ih => exact ih.mono (Calls.call found).assigns
  | broken condition within _ ih => exact ih.mono (Calls.round condition within).assigns
  | round condition within body _ ih ih' =>
    exact (ih.mono (Calls.round condition within).assigns).trans
      (ih'.mono (Calls.again condition within body).assigns)
  | @assign _ _ _ _ p node value _ _ found set =>
    obtain ⟨e, refused⟩ | ⟨d, -, written⟩ := setValue_cases node (some value) p.source
    · cases refused.symm.trans set
      exact .refl
    · cases written.symm.trans set
      exact revalued_replaceValue (some value) ⟨_, .refl, _, _, _, _, rfl, found⟩

/-- A place starts with the script of the place that calls it, which has other values at most. -/
lemma Calls.skeleton {place place' : Place} (h : Calls process limits place place') :
    place'.progress.source.skeleton = place.progress.source.skeleton := by
  cases h with
  | next visit => exact visit.revalued.skeleton
  | again _ _ body => exact body.revalued.skeleton
  | _ => rfl

/-- A run comes to its places with a script that differs in values and flags at most. -/
lemma ComesTo.skeleton {source result : Configuration} {place : Place}
    (h : ComesTo process limits source result place) :
    place.progress.source.skeleton = source.skeleton := by
  obtain ⟨header, result', -, -, calls⟩ := h
  induction calls with
  | refl => rfl
  | tail _ call ih => exact call.skeleton.trans ih

/-- An assignment fails and changes nothing, or it gives a value to one live node. -/
lemma assign_cases (process : Host) (limits : Limits) (body : Body) (target id : NodeId)
    (before : Option Bool) (p : Progress) :
    (∃ e, (carryOut process limits body target id before .assign).outcome p = (.error e, p)) ∨
      ∃ node value d, assignmentOf process p.source id = .ok (node, value) ∧
        p.source.live? node = some d ∧
        (carryOut process limits body target id before .assign).outcome p =
          (.ok none, { p with source := p.source.replaceValue node (some value) }) := by
  rw [carryOut]
  cases found : assignmentOf process p.source id with
  | error e => exact .inl ⟨e, Run.outcome_compute_error found⟩
  | ok a =>
    obtain ⟨node, value⟩ := a
    rw [Run.outcome_compute_ok found]
    dsimp only
    have edit : (Run.editSource (Edit.setValue node (some value))).outcome p =
        (Exit.lift ((Edit.setValue node (some value)).apply p.source).1,
          { p with source := ((Edit.setValue node (some value)).apply p.source).2 }) := rfl
    rw [Run.outcome_bind_pure, edit]
    obtain ⟨e, refused⟩ | ⟨d, live, written⟩ := setValue_cases node (some value) p.source
    · rw [refused]
      exact .inl ⟨.fails e, rfl⟩
    · rw [written]
      exact .inr ⟨node, value, d, rfl, live, rfl⟩

/-- However a run ends, its script is the same afterwards but for values and flags, and these differ
only on nodes that an assignment of the run addressed. An assignment of the run that fails leaves
all as it is, and one that succeeds gives its value to one node, which is live and was so from the
start. -/
theorem execute_revalued (process : Host) (limits : Limits) (source result : Configuration) :
    Revalued
        (fun node => ∃ place, ComesTo process limits source result place ∧
          place.Addresses process node)
        source (execute process limits source result).2.source ∧
      ∀ depth before id target p,
        ComesTo process limits source result ⟨depth, .act .assign before id target, p⟩ →
        ∀ body, match (carryOut process limits body target id before .assign).outcome p with
          | (.error _, p') => p' = p
          | (.ok _, p') => ∃ node value d, assignmentOf process p.source id = .ok (node, value) ∧
              p.source.live? node = some d ∧
              (source.live? node).map NodeData.skeleton = some d.skeleton ∧
              p' = { p with source := p.source.replaceValue node (some value) } := by
  constructor
  · obtain ⟨log, run⟩ := execute_executes process limits source result
    generalize execute process limits source result = ended at run ⊢
    obtain ⟨out, p⟩ := ended
    cases run with
    | noHeader | refused => exact .refl
    | run head prepared run =>
      refine run.revalued.mono fun node assigned => ?_
      obtain ⟨place, calls, addressed⟩ := assigned
      exact ⟨place, ⟨_, _, head, prepared, calls⟩, addressed⟩
  · intro depth before id target p comes body
    obtain ⟨e, failed⟩ | ⟨node, value, d, found, live, done⟩ :=
      assign_cases process limits body target id before p
    · rw [failed]
    · rw [done]
      have same := live?_of_skeleton comes.skeleton node
      rw [live] at same
      exact ⟨node, value, d, found, live, same.symm, rfl⟩

/-- An assignment that succeeds and one whose path leads nowhere. -/
theorem execute_revalued_failed :
    let source := (((((withRoot "base").addNode .attributeKind root "x" (some "0")).addNode
      .sectionKind root "_set" none).addNode .attributeKind 2 "path" (some "/$x")).addNode
        .attributeKind 2 "to" (some "1 + 1")).addNode .sectionKind root "_set" none
          |>.addNode .attributeKind 5 "path" (some "/$gone")
    (execute .bare ⟨9, 2⟩ source empty).1 =
      .error (.fails (.assignTargetMissing "/$gone" "/_set[1]")) ∧
      (execute .bare ⟨9, 2⟩ source empty).2.source.skeleton = source.skeleton ∧
      (execute .bare ⟨9, 2⟩ source empty).2.source.verbatim? 1 = some "2" ∧
      ∃ place, ComesTo .bare ⟨9, 2⟩ source empty place ∧ place.Addresses .bare 1 := by
  intro source
  have written : (execute .bare ⟨9, 2⟩ source empty).2.source.verbatim? 1 = some "2" := by
    decide +kernel
  have revalued := (execute_revalued .bare ⟨9, 2⟩ source empty).1
  refine ⟨by decide +kernel, revalued.skeleton, written, ?_⟩
  by_contra untouched
  have same := revalued.others 1 untouched
  rw [verbatim?, live?, same] at written
  revert written
  decide +kernel

end Script

end ConfTree
