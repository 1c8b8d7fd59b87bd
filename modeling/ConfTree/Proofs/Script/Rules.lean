import ConfTree.Proofs.Tree.Change
import ConfTree.Script.Run

/-!
# Rules of scripts

`Runs` is the meaning of scripts as rules. A loop has a rule for one more round and no bound of its
own, and blocks count how many others they stand in. A run keeps a log of its events: every block
that is run, every visit of a child of a block, every round of a loop and every section that is
added to the result. What a run does to its steps and to its trees is read off the log
(`Runs.kept`, `Runs.ends`).
-/

namespace ConfTree.Script

open ConfTree.Configuration

/-- What happens in a run. -/
inductive Event where
  /-- A block is run that stands in so many others. -/
  | block (depth : Nat)
  | visit (id : NodeId)
  | round (id : NodeId)
  | added (id : NodeId)
  deriving DecidableEq, Repr

/-- The event takes a step of the budget. -/
def Event.takesStep : Event → Bool
  | .visit _ => true
  | .round _ => true
  | _ => false

/-- The event adds a section to the result. -/
def Event.addsSection : Event → Bool
  | .added _ => true
  | _ => false

/-- What a run is at. -/
inductive Task where
  | block (id target : NodeId)
  | visits (before : Option Bool) (ids : List NodeId) (target : NodeId)
  | visit (before : Option Bool) (id target : NodeId)
  | copy (id target : NodeId)
  | act (control : Control) (before : Option Bool) (id target : NodeId)
  | rounds (id target : NodeId)

/-- How a task ends. The outcome of a condition is handed on to what stands directly behind it. -/
abbrev Outcome := Except (Exit ConfigError) (Option Bool)

/-- One more step. -/
def Progress.tick (p : Progress) : Progress := { p with steps := p.steps + 1 }

variable (process : Host) (limits : Limits)

/-- A task in a block of the given depth takes a run from one state to another, with a log of what
happens and an outcome. -/
inductive Runs : Nat → Task → Progress → List Event → Outcome → Progress → Prop where
  -- Blocks
  | tooDeep {depth id target p} :
    limits.depth < depth →
    Runs depth (.block id target) p []
      (.error (.fails (.malformedScript (p.source.rootPath id) (.tooDeep limits.depth)))) p
  | block {depth id target p log out p'} :
    depth ≤ limits.depth →
    Runs depth (.visits none (p.source.childrenOf id) target) p log out p' →
    Runs depth (.block id target) p (.block depth :: log) out p'
  | visited {depth before target p} : Runs depth (.visits before [] target) p [] (.ok none) p
  | halted {depth before id ids target p log e p'} :
    Runs depth (.visit before id target) p log (.error e) p' →
    Runs depth (.visits before (id :: ids) target) p log (.error e) p'
  | next {depth before id ids target p log after p' log' out p''} :
    Runs depth (.visit before id target) p log (.ok after) p' →
    Runs depth (.visits after ids target) p' log' out p'' →
    Runs depth (.visits before (id :: ids) target) p (log ++ log') out p''
  -- Visits
  | visitSpent {depth before id target p} :
    limits.steps < p.steps + 1 →
    Runs depth (.visit before id target) p [.visit id]
      (.error (.fails (.scriptTimeout (p.steps + 1)))) p.tick
  | gone {depth before id target p} :
    p.steps + 1 ≤ limits.steps →
    p.source.live? id = none →
    Runs depth (.visit before id target) p [.visit id] (.ok before) p.tick
  | control {depth before id target p d control log out p'} :
    p.steps + 1 ≤ limits.steps →
    p.source.live? id = some d →
    Control.ofName? d.name = some control →
    Runs depth (.act control before id target) p.tick log out p' →
    Runs depth (.visit before id target) p (.visit id :: log) out p'
  | unknown {depth before id target p d} :
    p.steps + 1 ≤ limits.steps →
    p.source.live? id = some d →
    Control.ofName? d.name = none →
    isReserved d.name = true →
    Runs depth (.visit before id target) p [.visit id]
      (.error (.fails (.unknownControl d.name (p.source.rootPath id)))) p.tick
  | ordinary {depth before id target p d log out p'} :
    p.steps + 1 ≤ limits.steps →
    p.source.live? id = some d →
    Control.ofName? d.name = none →
    isReserved d.name = false →
    Runs depth (.copy id target) p.tick log out p' →
    Runs depth (.visit before id target) p (.visit id :: log) out p'
  -- Copies
  | noFlag {depth id target p e} :
    isScriptOnly process p.source id = .error e →
    Runs depth (.copy id target) p [] (.error (.fails e)) p
  | skipped {depth id target p} :
    isScriptOnly process p.source id = .ok true →
    Runs depth (.copy id target) p [] (.ok none) p
  | noHeader {depth id target p e} :
    isScriptOnly process p.source id = .ok false →
    headerOf process p.source id = .error e →
    Runs depth (.copy id target) p [] (.error (.fails e)) p
  | refused {depth id target p header e result} :
    isScriptOnly process p.source id = .ok false →
    headerOf process p.source id = .ok header →
    (Edit.addSection target header.name header.value).apply p.result = (.error e, result) →
    Runs depth (.copy id target) p [] (.error (.fails e)) { p with result := result }
  | noAttributes {depth id target p header copied result e result'} :
    isScriptOnly process p.source id = .ok false →
    headerOf process p.source id = .ok header →
    (Edit.addSection target header.name header.value).apply p.result = (.ok copied, result) →
    (appendAttributes copied header.attributes).apply result = (.error e, result') →
    Runs depth (.copy id target) p [.added copied] (.error (.fails e)) { p with result := result' }
  | copied {depth id target p header copied result result' log out p'} :
    isScriptOnly process p.source id = .ok false →
    headerOf process p.source id = .ok header →
    (Edit.addSection target header.name header.value).apply p.result = (.ok copied, result) →
    (appendAttributes copied header.attributes).apply result = (.ok (), result') →
    Runs (depth + 1) (.block id copied) { p with result := result' } log out p' →
    Runs depth (.copy id target) p (.added copied :: log) out p'
  -- Instructions
  | noCondition {depth before id target p e} :
    holds process p.source id = .error e →
    Runs depth (.act .whenTrue before id target) p [] (.error e) p
  | notTaken {depth before id target p} :
    holds process p.source id = .ok false →
    Runs depth (.act .whenTrue before id target) p [] (.ok (some false)) p
  | taken {depth before id target p log out p'} :
    holds process p.source id = .ok true →
    Runs (depth + 1) (.block id target) p log out p' →
    Runs depth (.act .whenTrue before id target) p log (out.map fun _ => some true) p'
  | orphan {depth id target p} :
    Runs depth (.act .otherwise none id target) p []
      (.error (.fails (.orphanElse (p.source.rootPath id)))) p
  | done {depth id target p} :
    Runs depth (.act .otherwise (some true) id target) p [] (.ok none) p
  | otherwise {depth id target p log out p'} :
    Runs (depth + 1) (.block id target) p log out p' →
    Runs depth (.act .otherwise (some false) id target) p log out p'
  | loop {depth before id target p log out p'} :
    Runs depth (.rounds id target) p log out p' →
    Runs depth (.act .repeatWhile before id target) p log out p'
  | noAssignment {depth before id target p e} :
    assignmentOf process p.source id = .error e →
    Runs depth (.act .assign before id target) p [] (.error e) p
  | assign {depth before id target p node value out source} :
    assignmentOf process p.source id = .ok (node, value) →
    (Edit.setValue node (some value)).apply p.source = (out, source) →
    Runs depth (.act .assign before id target) p [] ((Exit.lift out).map fun _ => none)
      { p with source := source }
  | noCallee {depth before id target p e} :
    calleeOf process p.source id = .error e →
    Runs depth (.act .call before id target) p [] (.error (.fails e)) p
  | call {depth before id target p callee log out p'} :
    calleeOf process p.source id = .ok callee →
    Runs (depth + 1) (.block callee target) p log out p' →
    Runs depth (.act .call before id target) p log out p'
  -- Loops
  | noLoopCondition {depth id target p e} :
    holds process p.source id = .error e →
    Runs depth (.rounds id target) p [] (.error e) p
  | roundsEnd {depth id target p} :
    holds process p.source id = .ok false →
    Runs depth (.rounds id target) p [] (.ok none) p
  | roundSpent {depth id target p} :
    holds process p.source id = .ok true →
    limits.steps < p.steps + 1 →
    Runs depth (.rounds id target) p [.round id]
      (.error (.fails (.scriptTimeout (p.steps + 1)))) p.tick
  | broken {depth id target p log e p'} :
    holds process p.source id = .ok true →
    p.steps + 1 ≤ limits.steps →
    Runs (depth + 1) (.block id target) p.tick log (.error e) p' →
    Runs depth (.rounds id target) p (.round id :: log) (.error e) p'
  | round {depth id target p log after p' log' out p''} :
    holds process p.source id = .ok true →
    p.steps + 1 ≤ limits.steps →
    Runs (depth + 1) (.block id target) p.tick log (.ok after) p' →
    Runs depth (.rounds id target) p' log' out p'' →
    Runs depth (.rounds id target) p (.round id :: (log ++ log')) out p''

/-- The edit by which the root of the result becomes a copy of a header. -/
def prepare (header : Header) : Edit Unit := do
  Edit.clear root
  Edit.rename root header.name
  Edit.setValue root header.value
  appendAttributes root header.attributes

/-- A whole run of a script into a result. -/
inductive Executes (source result : Configuration) :
    List Event → Except (Exit ConfigError) Unit → Progress → Prop where
  | noHeader {e} :
    headerOf process source root = .error e →
    Executes source result [] (.error (.fails e)) ⟨source, result, 0⟩
  | refused {header e result'} :
    headerOf process source root = .ok header →
    (prepare header).apply result = (.error e, result') →
    Executes source result [] (.error (.fails e)) ⟨source, result', 0⟩
  | run {header result' log out p} :
    headerOf process source root = .ok header →
    (prepare header).apply result = (.ok (), result') →
    Runs process limits 0 (.block root root) ⟨source, result', 0⟩ log (out.map fun _ => none) p →
    Executes source result log out p

end ConfTree.Script
