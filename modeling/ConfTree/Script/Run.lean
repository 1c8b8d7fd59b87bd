import ConfTree.Script.Control
import ConfTree.Tree.Edit

/-!
# Running scripts

A run walks the sections of the script and appends to the result. It is bounded twice: blocks nest
only so deep, and every visit of a section and every round of a loop takes a step. Assignments write
to the script itself. A run that fails or panics leaves both trees as they are at that moment.
-/

namespace ConfTree.Script

/-- The limits of a run. -/
structure Limits where
  steps : Nat
  depth : Nat
  deriving DecidableEq, Repr

/-- The limits by default. -/
def Limits.standard : Limits := ⟨1000000, 128⟩

/-- What a run has come to. -/
structure Progress where
  source : Configuration
  result : Configuration
  steps : Nat

/-- A part of a run. -/
abbrev Run (α : Type) := ExceptT (Exit ConfigError) (StateM Progress) α

namespace Run

/-- Computes something from the script, and may panic over it. -/
def compute {α : Type} (f : Configuration → Except (Exit ConfigError) α) : Run α :=
  ExceptT.mk fun p => (f p.source, p)

/-- Looks at the script. -/
def look {α : Type} (f : Configuration → Except ConfigError α) : Run α :=
  compute fun conf => Exit.lift (f conf)

/-- Edits the script. -/
def editSource {α : Type} (edit : Edit α) : Run α :=
  ExceptT.mk fun ⟨source, result, steps⟩ =>
    let (outcome, source) := edit.apply source
    (Exit.lift outcome, ⟨source, result, steps⟩)

/-- Edits the result. -/
def editResult {α : Type} (edit : Edit α) : Run α :=
  ExceptT.mk fun ⟨source, result, steps⟩ =>
    let (outcome, result) := edit.apply result
    (Exit.lift outcome, ⟨source, result, steps⟩)

/-- Takes a step. -/
def tick (limit : Nat) : Run Unit :=
  ExceptT.mk fun ⟨source, result, steps⟩ =>
    let steps := steps + 1
    (if limit < steps then .error (.fails (.scriptTimeout steps)) else .ok (),
      ⟨source, result, steps⟩)

/-- Repeats the body as long as the condition holds. Every round takes a step, so no more than
`rounds` of them are possible within the limit. -/
def repeatWhile (limit : Nat) (condition : Run Bool) (body : Run Unit) : Nat → Run Unit
  | 0 => tick limit
  | rounds + 1 => do
    if ← condition then
      tick limit
      body
      repeatWhile limit condition body rounds

end Run

/-- Appends attributes to a section of the result. -/
def appendAttributes (target : NodeId) : List (String × Option String) → Edit Unit
  | [] => pure ()
  | (name, value) :: rest => do
    let _ ← Edit.addAttribute target name value
    appendAttributes target rest

variable (process : Host) (limits : Limits)

/-- Runs the body of a section of the script below a section of the result. -/
abbrev Body := NodeId → NodeId → Run Unit

/-- Copies an ordinary section and runs its body below the copy. -/
def copySection (body : Body) (target id : NodeId) : Run Unit := do
  let skipped ← Run.look (isScriptOnly process · id)
  if skipped then return
  let header ← Run.look (headerOf process · id)
  let copied ← Run.editResult (Edit.addSection target header.name header.value)
  Run.editResult (appendAttributes copied header.attributes)
  body id copied

/-- Carries out an instruction. The outcome of the condition directly before it is `before`, and its
own is returned. -/
def carryOut (body : Body) (target id : NodeId) (before : Option Bool) :
    Control → Run (Option Bool)
  | .whenTrue => do
    let taken ← Run.compute (holds process · id)
    if taken then body id target
    return some taken
  | .otherwise => do
    match before with
    | none => Run.look fun conf => .error (.orphanElse (conf.rootPath id))
    | some true => pure ()
    | some false => body id target
    return none
  | .repeatWhile => do
    Run.repeatWhile limits.steps (Run.compute (holds process · id)) (body id target)
      (limits.steps + 1)
    return none
  | .assign => do
    let (node, value) ← Run.compute (assignmentOf process · id)
    Run.editSource (Edit.setValue node (some value))
    return none
  | .call => do
    let callee ← Run.look (calleeOf process · id)
    body callee target
    return none

/-- Visits a section. The outcome of the condition directly before it is `before`, and its own is
returned. -/
def visit (body : Body) (target id : NodeId) (before : Option Bool) : Run (Option Bool) := do
  Run.tick limits.steps
  match ← Run.look fun conf => .ok ((conf.live? id).map (·.name)) with
  | none => return before
  | some name =>
    match Control.ofName? name with
    | some control => carryOut process limits body target id before control
    | none =>
      if isReserved name then
        Run.look fun conf => .error (.unknownControl name (conf.rootPath id))
      copySection process body target id
      return none

/-- Visits sections one after the other. -/
def visitAll (body : Body) (target : NodeId) (before : Option Bool) : List NodeId → Run Unit
  | [] => pure ()
  | id :: ids => do
    let after ← visit process limits body target id before
    visitAll body target after ids

/-- Runs the body of a section, in which blocks may nest less than `room` deep. Sections that come
to the body meanwhile are not visited. -/
def runBody (process : Host) (limits : Limits) : Nat → Body
  | 0, id, _ =>
    Run.look fun conf => .error (.malformedScript (conf.rootPath id) (.tooDeep limits.depth))
  | room + 1, id, target => do
    let ids ← Run.look fun conf => .ok (conf.childrenOf id)
    visitAll process limits (runBody process limits room) target none ids

/-- The whole run: the root of the result becomes an evaluated copy of the root of the script, and
the body of the script is run below it. -/
def runRoot : Run Unit := do
  let root := Configuration.root
  let header ← Run.look (headerOf process · root)
  Run.editResult do
    Edit.clear root
    Edit.rename root header.name
    Edit.setValue root header.value
    appendAttributes root header.attributes
  runBody process limits (limits.depth + 1) root root

/-- Runs a script into a result. -/
def execute (source result : Configuration) : Except (Exit ConfigError) Unit × Progress :=
  (runRoot process limits).run.run ⟨source, result, 0⟩

end ConfTree.Script
