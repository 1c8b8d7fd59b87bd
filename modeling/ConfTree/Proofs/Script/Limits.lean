import ConfTree.Proofs.Operation.Reachable
import ConfTree.Proofs.Script.Determinism
import ConfTree.Proofs.Tree.Shape

/-!
# Other limits

Limits do no more than cut a run short. A run that ended under some limits, well or with an error
that does not come of the limits, follows the rules under all others that have room for its blocks
and its steps (`Runs.refit`). So it is the same run under larger limits (`execute_enlarge`), and
under a smaller budget it is the same or stops with the first step beyond (`execute_curtail`).
-/

namespace ConfTree.Script

open ConfTree.Configuration

/-- The run took too many steps or nested too deep. -/
def CutShort {α : Type} (out : Except (Exit ConfigError) α) : Prop :=
  (∃ n, out = .error (.fails (.scriptTimeout n))) ∨
    ∃ path n, out = .error (.fails (.malformedScript path (.tooDeep n)))

/-- What a run hands on does not tell whether it was cut short. -/
lemma cutShort_map {α β : Type} {out : Except (Exit ConfigError) α} (f : α → β) :
    CutShort (out.map f) ↔ CutShort out := by
  cases out <;> simp [CutShort, Except.map]

/-- A result is not cut short. -/
lemma not_cutShort_ok {α : Type} (a : α) : ¬ CutShort (.ok a : Except (Exit ConfigError) α) := by
  simp [CutShort]

variable {process : Host} {limits limits' : Limits}

section

variable {depth : Nat} {task : Task} {p p' : Progress} {log : List Event} {out : Outcome}

/-- No task takes steps back. -/
lemma Runs.steps_le (h : Runs process limits depth task p log out p') : p.steps ≤ p'.steps := by
  rw [h.kept.steps]
  exact Nat.le_add_right _ _

variable (deep : limits.depth ≤ limits'.depth)

include deep

/-- A task that was not cut short comes to the same under other limits, by the same events, if they
have room for its blocks and its steps. -/
lemma Runs.refit (h : Runs process limits depth task p log out p') (whole : ¬ CutShort out)
    (fits : p'.steps ≤ limits'.steps) : Runs process limits' depth task p log out p' := by
  induction h with
  -- Blocks
  | tooDeep => exact absurd (.inr ⟨_, _, rfl⟩) whole
  | block shallow _ ih => exact .block (shallow.trans deep) (ih whole fits)
  | visited => exact .visited
  | halted _ ih => exact .halted (ih whole fits)
  | next _ rest ih ih' =>
    exact .next (ih (not_cutShort_ok _) (rest.steps_le.trans fits)) (ih' whole fits)
  -- Visits
  | visitSpent => exact absurd (.inl ⟨_, rfl⟩) whole
  | gone _ live => exact .gone fits live
  | control _ live control act ih =>
    exact .control (act.steps_le.trans fits) live control (ih whole fits)
  | unknown _ live control reserved => exact .unknown fits live control reserved
  | ordinary _ live control reserved copy ih =>
    exact .ordinary (copy.steps_le.trans fits) live control reserved (ih whole fits)
  -- Copies
  | noFlag flag => exact .noFlag flag
  | skipped flag => exact .skipped flag
  | noHeader flag head => exact .noHeader flag head
  | refused flag head add => exact .refused flag head add
  | noAttributes flag head add attributes => exact .noAttributes flag head add attributes
  | copied flag head add attributes _ ih => exact .copied flag head add attributes (ih whole fits)
  -- Instructions
  | noCondition condition => exact .noCondition condition
  | notTaken condition => exact .notTaken condition
  | taken condition _ ih =>
    exact .taken condition (ih (fun cut => whole ((cutShort_map _).2 cut)) fits)
  | orphan => exact .orphan
  | done => exact .done
  | otherwise _ ih => exact .otherwise (ih whole fits)
  | loop _ ih => exact .loop (ih whole fits)
  | noAssignment found => exact .noAssignment found
  | assign found set => exact .assign found set
  | noCallee found => exact .noCallee found
  | call found _ ih => exact .call found (ih whole fits)
  -- Loops
  | noLoopCondition condition => exact .noLoopCondition condition
  | roundsEnd condition => exact .roundsEnd condition
  | roundSpent => exact absurd (.inl ⟨_, rfl⟩) whole
  | broken condition _ body ih =>
    exact .broken condition (body.steps_le.trans fits) (ih whole fits)
  | round condition _ body rest ih ih' =>
    have ended := rest.steps_le.trans fits
    have first := ih (not_cutShort_ok _) ended
    exact .round condition (body.steps_le.trans ended) first (ih' whole fits)

omit deep in
/-- A visit beyond the budget ends with the timeout of the first step beyond it. -/
lemma Runs.visit_beyond {before : Option Bool} {id target : NodeId}
    (spent : p.steps = limits.steps) :
    Runs process limits depth (.visit before id target) p [.visit id]
      (.error (.fails (.scriptTimeout (limits.steps + 1)))) p.tick := by
  rw [← spent]
  exact .visitSpent (by omega)

omit deep in
/-- A round beyond the budget ends with the timeout of the first step beyond it. -/
lemma Runs.round_beyond {id target : NodeId} (condition : holds process p.source id = .ok true)
    (spent : p.steps = limits.steps) :
    Runs process limits depth (.rounds id target) p [.round id]
      (.error (.fails (.scriptTimeout (limits.steps + 1)))) p.tick := by
  rw [← spent]
  exact .roundSpent condition (by omega)

/-- A task that takes more steps than a budget allows ends with the timeout of the first step beyond
it. -/
lemma Runs.curtail (h : Runs process limits depth task p log out p') (whole : ¬ CutShort out)
    (start : p.steps ≤ limits'.steps) (spent : limits'.steps < p'.steps) :
    ∃ log' q, Runs process limits' depth task p log'
      (.error (.fails (.scriptTimeout (limits'.steps + 1)))) q := by
  -- The budget runs out in the first part that does not fit, and the parts before it fit.
  induction h with
  | tooDeep | visited | noFlag | skipped | noHeader | refused | noAttributes | noCondition
  | notTaken | orphan | done | noAssignment | assign | noCallee | noLoopCondition | roundsEnd =>
    exact absurd start (Nat.not_le.2 spent)
  | visitSpent | roundSpent => exact absurd (.inl ⟨_, rfl⟩) whole
  | block shallow _ ih =>
    obtain ⟨log', q, run⟩ := ih whole start spent
    exact ⟨_, q, .block (shallow.trans deep) run⟩
  | halted _ ih =>
    obtain ⟨log', q, run⟩ := ih whole start spent
    exact ⟨_, q, .halted run⟩
  | @next _ _ _ _ _ _ _ _ mid _ _ _ visit _ ih ih' =>
    by_cases fits : mid.steps ≤ limits'.steps
    · obtain ⟨log', q, run⟩ := ih' whole fits spent
      exact ⟨_, q, .next (visit.refit deep (not_cutShort_ok _) fits) run⟩
    · obtain ⟨log', q, run⟩ := ih (not_cutShort_ok _) start (Nat.lt_of_not_le fits)
      exact ⟨_, q, .halted run⟩
  | gone | unknown =>
    exact ⟨_, _, .visit_beyond (Nat.le_antisymm start (Nat.le_of_lt_succ spent))⟩
  | @control _ _ _ _ p _ _ _ _ _ _ live control _ ih =>
    by_cases within : p.steps + 1 ≤ limits'.steps
    · obtain ⟨log', q, run⟩ := ih whole within spent
      exact ⟨_, q, .control within live control run⟩
    · exact ⟨_, _, .visit_beyond (by omega)⟩
  | @ordinary _ _ _ _ p _ _ _ _ _ live control reserved _ ih =>
    by_cases within : p.steps + 1 ≤ limits'.steps
    · obtain ⟨log', q, run⟩ := ih whole within spent
      exact ⟨_, q, .ordinary within live control reserved run⟩
    · exact ⟨_, _, .visit_beyond (by omega)⟩
  | copied flag head add attributes _ ih =>
    obtain ⟨log', q, run⟩ := ih whole start spent
    exact ⟨_, q, .copied flag head add attributes run⟩
  | taken condition _ ih =>
    obtain ⟨log', q, run⟩ := ih (fun cut => whole ((cutShort_map _).2 cut)) start spent
    exact ⟨_, q, .taken condition run⟩
  | otherwise _ ih =>
    obtain ⟨log', q, run⟩ := ih whole start spent
    exact ⟨_, q, .otherwise run⟩
  | loop _ ih =>
    obtain ⟨log', q, run⟩ := ih whole start spent
    exact ⟨_, q, .loop run⟩
  | call found _ ih =>
    obtain ⟨log', q, run⟩ := ih whole start spent
    exact ⟨_, q, .call found run⟩
  | @broken _ id _ p _ _ _ condition _ _ ih =>
    by_cases within : p.steps + 1 ≤ limits'.steps
    · obtain ⟨log', q, run⟩ := ih whole within spent
      exact ⟨_, q, .broken condition within run⟩
    · exact ⟨_, _, .round_beyond condition (by omega)⟩
  | @round _ _ _ p _ _ mid _ _ _ condition _ body _ ih ih' =>
    by_cases within : p.steps + 1 ≤ limits'.steps
    · by_cases fits : mid.steps ≤ limits'.steps
      · obtain ⟨log', q, run⟩ := ih' whole fits spent
        exact ⟨_, q, .round condition within (body.refit deep (not_cutShort_ok _) fits) run⟩
      · obtain ⟨log', q, run⟩ := ih (not_cutShort_ok _) within (Nat.lt_of_not_le fits)
        exact ⟨_, q, .broken condition within run⟩
    · exact ⟨_, _, .round_beyond condition (by omega)⟩

end

section

variable {source result : Configuration} {log : List Event} {out : Except (Exit ConfigError) Unit}
  {p : Progress} (deep : limits.depth ≤ limits'.depth)
  (h : Executes process limits source result log out p) (whole : ¬ CutShort out)

include deep h whole

/-- A whole run that was not cut short is one under other limits that have room for it. -/
lemma Executes.refit (fits : p.steps ≤ limits'.steps) :
    Executes process limits' source result log out p := by
  cases h with
  | noHeader head => exact .noHeader head
  | refused head prepared => exact .refused head prepared
  | run head prepared run =>
    exact .run head prepared (run.refit deep (fun cut => whole ((cutShort_map _).1 cut)) fits)

/-- A whole run that was not cut short is one under larger limits. -/
lemma Executes.enlarge (steps : limits.steps ≤ limits'.steps) :
    Executes process limits' source result log out p := by
  have within := h.within fun n timeout => whole (.inl ⟨n, timeout⟩)
  exact h.refit deep whole (within.trans steps)

/-- A whole run that takes more steps than a budget allows ends with the timeout of the first step
beyond it. -/
lemma Executes.curtail (spent : limits'.steps < p.steps) :
    ∃ log' q, Executes process limits' source result log'
      (.error (.fails (.scriptTimeout (limits'.steps + 1)))) q := by
  cases h with
  | noHeader | refused => exact absurd spent (Nat.not_lt_zero _)
  | run head prepared run =>
    obtain ⟨log', q, ended⟩ :=
      run.curtail deep (fun cut => whole ((cutShort_map _).1 cut)) (Nat.zero_le _) spent
    exact ⟨log', q, .run head prepared ended⟩

end

/-- A run that was not cut short by its limits is the same under all larger limits: it ends alike,
in the same step, and leaves the same script and the same result. -/
theorem execute_enlarge (process : Host) (source result : Configuration)
    (steps : limits.steps ≤ limits'.steps) (deep : limits.depth ≤ limits'.depth)
    (whole : ¬ CutShort (execute process limits source result).1) :
    execute process limits' source result = execute process limits source result := by
  obtain ⟨log, run⟩ := execute_executes process limits source result
  exact (run.enlarge deep whole steps).execute_eq

/-- A run that was not cut short is the same under any budget that has room for its steps, and ends
with the timeout of the first step beyond the budget under any other. -/
lemma execute_curtail {source result : Configuration} (deep : limits.depth ≤ limits'.depth)
    (whole : ¬ CutShort (execute process limits source result).1) :
    let ended := execute process limits source result
    (ended.2.steps ≤ limits'.steps → execute process limits' source result = ended) ∧
      (limits'.steps < ended.2.steps →
        (execute process limits' source result).1 =
          .error (.fails (.scriptTimeout (limits'.steps + 1)))) := by
  intro ended
  obtain ⟨log, run⟩ := execute_executes process limits source result
  refine ⟨fun fits => (run.refit deep whole fits).execute_eq, fun spent => ?_⟩
  obtain ⟨log', q, stopped⟩ := run.curtail deep whole spent
  rw [stopped.execute_eq]

/-- A loop that appends a section in each round until its script meets an instruction that it does
not know. The sections that it appended before are there under any larger limits. -/
theorem execute_enlarge_unknown :
    let source := (withRoot "list").operateAll
      [(.bare, .addAttribute 0 "n" (some "0")), (.bare, .addSection 0 "_loop" (some "true")),
        (.bare, .addSection 2 "item$(/$n)" none), (.bare, .addSection 2 "_set" none),
        (.bare, .addAttribute 4 "path" (some "/$n")),
        (.bare, .addAttribute 4 "to" (some "$(/$n) + 1")),
        (.bare, .addSection 2 "_if" (some "$(/$n) == 2")), (.bare, .addSection 7 "_stop" none)]
    ¬ CutShort (execute .bare ⟨10, 2⟩ source empty).1 ∧
      (execute .bare ⟨1000, 40⟩ source empty).1 =
        .error (.fails (.unknownControl "_stop" "/_loop/_if/_stop")) ∧
      ((execute .bare ⟨1000, 40⟩ source empty).2.result.shape root).children.map Shape.name =
        ["item0", "item1"] := by
  intro source
  have stopped : (execute .bare ⟨10, 2⟩ source empty).1 =
      .error (.fails (.unknownControl "_stop" "/_loop/_if/_stop")) := by
    decide +kernel
  have whole : ¬ CutShort (execute .bare ⟨10, 2⟩ source empty).1 := by
    rw [stopped]
    simp [CutShort]
  have same : execute .bare ⟨1000, 40⟩ source empty = execute .bare ⟨10, 2⟩ source empty :=
    execute_enlarge .bare source empty (by decide) (by decide) whole
  rw [same]
  exact ⟨whole, stopped, by decide +kernel⟩

end ConfTree.Script
