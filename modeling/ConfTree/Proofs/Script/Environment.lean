import ConfTree.Proofs.Evaluation.Environment
import ConfTree.Proofs.Script.Determinism

/-!
# What a script sees of the process

A script looks at the state of the process by evaluations only, and nothing that a run does changes
the environment of the script. So a run under one state of the process is, rule by rule, a run under
any other that has the same variables for the script (`Runs.transfer`), and the script comes to the
same end (`SameVariables.execute`).
-/

namespace ConfTree

open ConfTree.Script

variable {p q : Host} {conf conf' : Configuration}

namespace SameVariables

/-- What counts is where variables are looked up. -/
lemma of_environment_eq (h : SameVariables p q conf) (same : conf'.environment = conf.environment) :
    SameVariables p q conf' := by
  refine ⟨?_, h.instant⟩
  rw [same]
  exact h.alike

/-! ## What a script looks at -/

section

variable (h : SameVariables p q conf)

include h

/-- The attributes of a header are evaluated alike. -/
lemma headerAttributes (ids : List NodeId) :
    headerAttributes q conf ids = headerAttributes p conf ids := by
  induction ids with
  | nil => rfl
  | cons id ids ih => rw [Script.headerAttributes, Script.headerAttributes, h.value?, ih]

/-- The header of a section is evaluated alike. -/
lemma headerOf (id : NodeId) : headerOf q conf id = headerOf p conf id := by
  simp only [Script.headerOf, h.evaluate, h.value?, h.headerAttributes]

/-- The mark for scripts is evaluated alike. -/
lemma isScriptOnly (id : NodeId) : isScriptOnly q conf id = isScriptOnly p conf id := by
  simp only [Script.isScriptOnly, attributeValue, h.valueOf?]

/-- A condition is evaluated alike. -/
lemma holds (id : NodeId) : holds q conf id = holds p conf id := by
  simp only [Script.holds, h.value?]

/-- An assignment is evaluated alike. -/
lemma assignmentOf (id : NodeId) : assignmentOf q conf id = assignmentOf p conf id := by
  simp only [Script.assignmentOf, attributeValue, h.valueOf?, h.navigate]

/-- The section that is called is found alike. -/
lemma calleeOf (id : NodeId) : calleeOf q conf id = calleeOf p conf id := by
  simp only [Script.calleeOf, h.value?, h.navigate]

end

end SameVariables

namespace Script

variable {limits : Limits} {source result : Configuration}

/-- A run is one under the other state of the process as well. -/
lemma Runs.transfer {depth : Nat} {task : Task} {s s' : Progress} {log : List Event} {out : Outcome}
    (h : Runs p limits depth task s log out s') (same : SameVariables p q s.source) :
    Runs q limits depth task s log out s' := by
  induction h with
  -- Blocks and visits look at the script, but evaluate nothing.
  | tooDeep deep => exact .tooDeep deep
  | block shallow _ ih => exact .block shallow (ih same)
  | visited => exact .visited
  | halted _ ih => exact .halted (ih same)
  | next first _ ih ih' =>
    exact .next (ih same) (ih' (same.of_environment_eq first.kept.environment))
  | visitSpent spent => exact .visitSpent spent
  | gone within dead => exact .gone within dead
  | control within live named _ ih => exact .control within live named (ih same)
  | unknown within live other reserved => exact .unknown within live other reserved
  | ordinary within live other free _ ih => exact .ordinary within live other free (ih same)
  -- Copies and instructions see the same values.
  | noFlag flag => exact .noFlag ((same.isScriptOnly _).trans flag)
  | skipped flag => exact .skipped ((same.isScriptOnly _).trans flag)
  | noHeader flag header =>
    exact .noHeader ((same.isScriptOnly _).trans flag) ((same.headerOf _).trans header)
  | refused flag header add =>
    exact .refused ((same.isScriptOnly _).trans flag) ((same.headerOf _).trans header) add
  | noAttributes flag header add attributes =>
    exact .noAttributes ((same.isScriptOnly _).trans flag) ((same.headerOf _).trans header) add
      attributes
  | copied flag header add attributes _ ih =>
    exact .copied ((same.isScriptOnly _).trans flag) ((same.headerOf _).trans header) add
      attributes (ih same)
  | noCondition condition => exact .noCondition ((same.holds _).trans condition)
  | notTaken condition => exact .notTaken ((same.holds _).trans condition)
  | taken condition _ ih => exact .taken ((same.holds _).trans condition) (ih same)
  | orphan => exact .orphan
  | done => exact .done
  | otherwise _ ih => exact .otherwise (ih same)
  | loop _ ih => exact .loop (ih same)
  | noAssignment fails => exact .noAssignment ((same.assignmentOf _).trans fails)
  | assign assignment set => exact .assign ((same.assignmentOf _).trans assignment) set
  | noCallee fails => exact .noCallee ((same.calleeOf _).trans fails)
  | call callee _ ih => exact .call ((same.calleeOf _).trans callee) (ih same)
  | noLoopCondition condition => exact .noLoopCondition ((same.holds _).trans condition)
  | roundsEnd condition => exact .roundsEnd ((same.holds _).trans condition)
  | roundSpent condition spent => exact .roundSpent ((same.holds _).trans condition) spent
  | broken condition within _ ih => exact .broken ((same.holds _).trans condition) within (ih same)
  | round condition within first _ ih ih' =>
    exact .round ((same.holds _).trans condition) within (ih same)
      (ih' (same.of_environment_eq first.kept.environment))

end Script

/-- A script comes to the same end under both states of the process, whatever result it has. -/
lemma SameVariables.execute {source : Configuration} (h : SameVariables p q source)
    (limits : Limits) (result : Configuration) :
    execute q limits source result = execute p limits source result := by
  obtain ⟨log, executes⟩ := execute_executes p limits source result
  generalize ended : Script.execute p limits source result = e at executes ⊢
  obtain ⟨out, s⟩ := e
  suffices transferred : Executes q limits source result log out s from transferred.execute_eq
  cases executes with
  | noHeader head => exact .noHeader ((h.headerOf _).trans head)
  | refused head prepared => exact .refused ((h.headerOf _).trans head) prepared
  | run head prepared run => exact .run ((h.headerOf _).trans head) prepared (run.transfer h)

end ConfTree
