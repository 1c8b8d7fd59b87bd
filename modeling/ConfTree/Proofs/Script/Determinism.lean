import ConfTree.Proofs.Script.Budget

/-!
# The rules decide a run

The rules of scripts leave a run no choice: what they let a task come to is what the program makes
of it (`Runs.outcome_eq`). Together with `execute_executes`, running a script into a result is the
one whole run that the rules allow (`Executes.execute_eq`).
-/

namespace ConfTree.Script

open ConfTree.Configuration Run

variable {process : Host} {limits : Limits}

/-- The task as the program carries it out in a block of the given depth. A loop may go on for so
many rounds. -/
def Task.run (process : Host) (limits : Limits) (depth rounds : Nat) :
    Task → Run (Option Bool)
  | .block id target => do
    runBody process limits (limits.depth + 1 - depth) id target
    return none
  | .visits before ids target => do
    visitAll process limits (runBody process limits (limits.depth - depth)) target before ids
    return none
  | .visit before id target =>
    Script.visit process limits (runBody process limits (limits.depth - depth)) target id before
  | .copy id target => do
    copySection process (runBody process limits (limits.depth - depth)) target id
    return none
  | .act control before id target =>
    carryOut process limits (runBody process limits (limits.depth - depth)) target id before control
  | .rounds id target => do
    Run.repeatWhile limits.steps (Run.compute (holds process · id))
      (runBody process limits (limits.depth - depth) id target) rounds
    return none

/-- A tick is one step. -/
lemma Progress.steps_tick (p : Progress) : p.tick.steps = p.steps + 1 := rfl

/-- A visit of a live section within the budget does what the name of the section asks for. -/
lemma outcome_visit {body : Body} {target id : NodeId} {before : Option Bool} {p : Progress}
    {d : NodeData} (within : p.steps + 1 ≤ limits.steps) (live : p.source.live? id = some d) :
    (visit process limits body target id before).outcome p =
      (match Control.ofName? d.name with
        | some control => carryOut process limits body target id before control
        | none => do
          if isReserved d.name then
            Run.look fun conf => .error (.unknownControl d.name (conf.rootPath id))
          copySection process body target id
          return none : Run (Option Bool)).outcome p.tick := by
  rw [visit, outcome_bind_ok (outcome_tick within), outcome_see,
    show p.tick.source.live? id = some d from live]
  rfl

/-- A run that is followed by another one goes on from where it ended, whatever it handed on. -/
lemma Run.outcome_then {α : Type} {run : Run Unit} {p p' : Progress} {out : Outcome}
    {a : Option Bool} (f : Unit → Run α) :
    (run >>= fun _ => pure a).outcome p = (out, p') →
      (run >>= f).outcome p =
        match out with
        | .ok _ => (f ()).outcome p'
        | .error e => (.error e, p') := by
  intro h
  rw [outcome_bind_pure] at h
  obtain ⟨rfl, rfl⟩ := Prod.mk.inj h
  rw [outcome_bind]
  rcases run.outcome p with ⟨_ | _, _⟩ <;> rfl

section

variable {depth : Nat} {task : Task} {p p' : Progress} {log : List Event} {out : Outcome}

/-- What the rules let a task come to is what the program makes of it, if its loops may go on for as
many rounds as the budget has steps left. -/
lemma Runs.outcome_eq (h : Runs process limits depth task p log out p')
    (start : p.steps ≤ limits.steps) (rounds : Nat) (enough : limits.steps < p.steps + rounds) :
    (task.run process limits depth rounds).outcome p = (out, p') := by
  induction h generalizing rounds with
  -- Blocks
  | @tooDeep depth _ _ _ deep =>
    have nothing : limits.depth + 1 - depth = 0 := by omega
    rw [Task.run, nothing]
    rfl
  | @block depth _ _ _ _ _ _ shallow _ ih =>
    have room : limits.depth + 1 - depth = limits.depth - depth + 1 := by omega
    rw [Task.run, room, runBody, bind_assoc, outcome_see]
    exact ih start rounds enough
  | visited => rfl
  | halted _ ih =>
    rw [Task.run, visitAll, bind_assoc]
    exact outcome_bind_error (ih start rounds enough)
  | next first _ ih ih' =>
    have later := first.kept.steps
    rw [Task.run, visitAll, bind_assoc]
    exact (outcome_bind_ok (ih start rounds enough)).trans
      (ih' (first.within start) rounds (by omega))
  -- Visits
  | visitSpent spent => exact outcome_bind_error (outcome_tick_spent spent)
  | gone within live =>
    rw [Task.run, visit, outcome_bind_ok (outcome_tick within), outcome_see, Progress.tick, live]
    rfl
  | control within live control _ ih =>
    rw [Task.run, outcome_visit within live, control]
    exact ih within rounds (by rw [Progress.steps_tick]; omega)
  | unknown within live control reserved =>
    rw [Task.run, outcome_visit within live, control]
    dsimp only
    rw [if_pos reserved]
    exact outcome_look_error rfl
  | ordinary within live control reserved _ ih =>
    rw [Task.run, outcome_visit within live, control]
    dsimp only
    rw [if_neg (by simp [reserved])]
    exact ih within rounds (by rw [Progress.steps_tick]; omega)
  -- Copies
  | noFlag flag =>
    rw [Task.run, copySection, bind_assoc]
    exact outcome_look_error flag
  | skipped flag =>
    rw [Task.run, copySection, bind_assoc, outcome_look_ok flag]
    rfl
  | noHeader flag head =>
    rw [Task.run, copySection, bind_assoc, outcome_look_ok flag, if_neg (by decide), bind_assoc]
    exact outcome_look_error head
  | refused flag head add =>
    rw [Task.run, copySection, bind_assoc, outcome_look_ok flag, if_neg (by decide), bind_assoc,
      outcome_look_ok head, bind_assoc]
    exact outcome_edit_error add
  | noAttributes flag head add attributes =>
    rw [Task.run, copySection, bind_assoc, outcome_look_ok flag, if_neg (by decide), bind_assoc,
      outcome_look_ok head, bind_assoc, outcome_edit_ok add, bind_assoc]
    exact outcome_edit_error attributes
  | copied flag head add attributes _ ih =>
    have inner := ih start rounds enough
    rw [Task.run, Nat.add_sub_add_right] at inner
    rw [Task.run, copySection, bind_assoc, outcome_look_ok flag, if_neg (by decide), bind_assoc,
      outcome_look_ok head, bind_assoc, outcome_edit_ok add, bind_assoc, outcome_edit_ok attributes]
    exact inner
  -- Instructions
  | noCondition condition => exact outcome_compute_error condition
  | notTaken condition =>
    rw [Task.run, carryOut, outcome_compute_ok condition]
    rfl
  | @taken _ _ _ _ _ _ out _ condition _ ih =>
    have inner := ih start rounds enough
    rw [Task.run, Nat.add_sub_add_right] at inner
    rw [Task.run, carryOut, outcome_compute_ok condition]
    refine (outcome_then (fun _ => pure (some true)) inner).trans ?_
    cases out <;> rfl
  | orphan => rfl
  | done => rfl
  | otherwise _ ih =>
    have inner := ih start rounds enough
    rw [Task.run, Nat.add_sub_add_right] at inner
    exact inner
  | loop _ ih => exact ih start (limits.steps + 1) (by omega)
  | noAssignment found => exact outcome_compute_error found
  | @assign _ _ _ _ p _ _ out source found set =>
    have edit : (Run.editSource (Edit.setValue _ (some _))).outcome p =
        (Exit.lift out, { p with source := source }) :=
      congrArg (fun r => (Exit.lift r.1, { p with source := r.2 })) set
    rw [Task.run, carryOut, outcome_compute_ok found]
    dsimp only
    rw [outcome_bind_pure, edit]
  | noCallee found => exact outcome_look_error found
  | call found _ ih =>
    have inner := ih start rounds enough
    rw [Task.run, Nat.add_sub_add_right] at inner
    rw [Task.run, carryOut, outcome_look_ok found]
    exact inner
  -- Loops
  | noLoopCondition condition =>
    obtain ⟨rounds, rfl⟩ : ∃ n, rounds = n + 1 := ⟨rounds - 1, by omega⟩
    rw [Task.run, repeatWhile, bind_assoc]
    exact outcome_compute_error condition
  | roundsEnd condition =>
    obtain ⟨rounds, rfl⟩ : ∃ n, rounds = n + 1 := ⟨rounds - 1, by omega⟩
    rw [Task.run, repeatWhile, bind_assoc, outcome_compute_ok condition]
    rfl
  | roundSpent condition spent =>
    obtain ⟨rounds, rfl⟩ : ∃ n, rounds = n + 1 := ⟨rounds - 1, by omega⟩
    rw [Task.run, repeatWhile, bind_assoc, outcome_compute_ok condition, if_pos rfl, bind_assoc]
    exact outcome_bind_error (outcome_tick_spent spent)
  | broken condition within _ ih =>
    obtain ⟨rounds, rfl⟩ : ∃ n, rounds = n + 1 := ⟨rounds - 1, by omega⟩
    have inner := ih within rounds (by rw [Progress.steps_tick]; omega)
    rw [Task.run, Nat.add_sub_add_right] at inner
    rw [Task.run, repeatWhile, bind_assoc, outcome_compute_ok condition, if_pos rfl, bind_assoc,
      outcome_bind_ok (outcome_tick within), bind_assoc]
    exact outcome_then _ inner
  | round condition within first _ ih ih' =>
    obtain ⟨rounds, rfl⟩ : ∃ n, rounds = n + 1 := ⟨rounds - 1, by omega⟩
    have later := first.kept.steps
    rw [Progress.steps_tick] at later
    have inner := ih within rounds (by rw [Progress.steps_tick]; omega)
    rw [Task.run, Nat.add_sub_add_right] at inner
    rw [Task.run, repeatWhile, bind_assoc, outcome_compute_ok condition, if_pos rfl, bind_assoc,
      outcome_bind_ok (outcome_tick within), bind_assoc]
    exact (outcome_then _ inner).trans (ih' (first.within within) rounds (by omega))

end

/-- A whole run by the rules is that of the program. -/
lemma Executes.execute_eq {source result : Configuration} {log : List Event}
    {out : Except (Exit ConfigError) Unit} {p : Progress}
    (h : Executes process limits source result log out p) :
    execute process limits source result = (out, p) := by
  show (runRoot process limits).outcome ⟨source, result, 0⟩ = (out, p)
  rw [runRoot]
  cases h with
  | noHeader head => exact outcome_look_error head
  | refused head prepared =>
    rw [outcome_look_ok head]
    exact outcome_edit_error prepared
  | run head prepared run =>
    have body := run.outcome_eq (Nat.zero_le _) (limits.steps + 1) (by omega)
    rw [outcome_look_ok head]
    refine (outcome_edit_ok prepared).trans ?_
    have ended := outcome_then pure body
    rw [Nat.sub_zero, bind_pure] at ended
    rw [ended]
    cases out <;> rfl

end ConfTree.Script
