import ConfTree.Proofs.Operation.Scripts
import ConfTree.Proofs.Script.Timeouts

/-!
# Runs within their budget

Running a script follows the rules of scripts (`execute_executes`): the bound that the program puts
on the rounds of a loop is never what ends the loop, since every round takes a step of the budget.
So every run has an end within the budget, and its log tells how it came there.
-/

namespace ConfTree.Script

open ConfTree.Configuration

variable {process : Host} {limits : Limits}

namespace Run

variable {α β : Type} {x : Run α} {f : α → Run β} {p p' : Progress}

/-- A result is handed on with the progress so far. -/
lemma outcome_bind_ok {a : α} (h : x.outcome p = (.ok a, p')) :
    (x >>= f).outcome p = (f a).outcome p' := by
  rw [outcome_bind, h]

/-- An error ends what follows. -/
lemma outcome_bind_error {e : Exit ConfigError} (h : x.outcome p = (.error e, p')) :
    (x >>= f).outcome p = (.error e, p') := by
  rw [outcome_bind, h]

/-- What is computed from the source is handed on. -/
lemma outcome_compute_ok {g : Configuration → Except (Exit ConfigError) α} {a : α}
    (h : g p.source = .ok a) : (compute g >>= f).outcome p = (f a).outcome p :=
  outcome_bind_ok (congrArg (·, p) h)

/-- A computation that fails ends the run where it is. -/
lemma outcome_compute_error {g : Configuration → Except (Exit ConfigError) α}
    {e : Exit ConfigError} (h : g p.source = .error e) :
    (compute g >>= f).outcome p = (.error e, p) :=
  outcome_bind_error (congrArg (·, p) h)

/-- What is found in the source is handed on. -/
lemma outcome_look_ok {g : Configuration → Except ConfigError α} {a : α}
    (h : g p.source = .ok a) : (look g >>= f).outcome p = (f a).outcome p :=
  outcome_compute_ok (congrArg Exit.lift h)

/-- A look that fails ends the run where it is. -/
lemma outcome_look_error {g : Configuration → Except ConfigError α} {e : ConfigError}
    (h : g p.source = .error e) : (look g >>= f).outcome p = (.error (.fails e), p) :=
  outcome_compute_error (congrArg Exit.lift h)

/-- A look that cannot fail is handed on. -/
lemma outcome_see (g : Configuration → α) :
    (Run.look (fun conf => .ok (g conf)) >>= f).outcome p = (f (g p.source)).outcome p :=
  outcome_look_ok rfl

/-- A run that goes on with a value comes to what it comes to, but for the value. -/
lemma outcome_bind_pure (run : Run Unit) (b : β) :
    (run >>= fun _ => pure b).outcome p =
      ((run.outcome p).1.map fun _ => b, (run.outcome p).2) := by
  rw [outcome_bind]
  cases run.outcome p with
  | mk out p' => cases out <;> rfl

/-- An edit of the result is handed on with what it made. -/
lemma outcome_edit_ok {edit : Edit α} {a : α} {result : Configuration}
    (h : edit.apply p.result = (.ok a, result)) :
    (editResult edit >>= f).outcome p = (f a).outcome { p with result := result } :=
  outcome_bind_ok (congrArg (fun r => (Exit.lift r.1, { p with result := r.2 })) h)

/-- An edit that fails ends the run with what it left. -/
lemma outcome_edit_error {edit : Edit α} {e : ConfigError} {result : Configuration}
    (h : edit.apply p.result = (.error e, result)) :
    (editResult edit >>= f).outcome p = (.error (.fails e), { p with result := result }) :=
  outcome_bind_error (congrArg (fun r => (Exit.lift r.1, { p with result := r.2 })) h)

/-- Where no step is left, the run times out with the number of the next one. -/
lemma outcome_tick_spent {limit : Nat} (h : limit < p.steps + 1) :
    (tick limit).outcome p = (.error (.fails (.scriptTimeout (p.steps + 1))), p.tick) :=
  congrArg (·, p.tick) (if_pos h)

/-- A step is taken if one is left. -/
lemma outcome_tick {limit : Nat} (h : p.steps + 1 ≤ limit) :
    (tick limit).outcome p = (.ok (), p.tick) :=
  congrArg (·, p.tick) (if_neg (by omega))

end Run

open Run

/-- Results that are mapped twice are mapped once. -/
lemma map_map {ε α β γ : Type} (out : Except ε α) (f : α → β) (g : β → γ) :
    (out.map f).map g = out.map fun a => g (f a) := by
  cases out <;> rfl

/-- A run that goes on is within its budget. -/
lemma Runs.within {depth : Nat} {task : Task} {p p' : Progress} {log : List Event}
    {after : Option Bool} (h : Runs process limits depth task p log (.ok after) p')
    (start : p.steps ≤ limits.steps) : p'.steps ≤ limits.steps := by
  obtain within | ⟨-, timeout⟩ := h.ends start
  · exact within
  · cases timeout

/-- The program carries a task out by the rules, from every state within the budget. -/
def Follows (process : Host) (limits : Limits) (depth : Nat) (task : Task) {α : Type}
    (after : α → Option Bool) (run : Run α) : Prop :=
  ∀ p, p.steps ≤ limits.steps →
    ∃ log, Runs process limits depth task p log ((run.outcome p).1.map after) (run.outcome p).2

section

variable {body : Body} {depth : Nat} (hbody : ∀ id target,
  Follows process limits (depth + 1) (.block id target) (fun _ => none) (body id target))

include hbody

/-- A loop that may go on for as many rounds as the budget has steps left follows the rules. -/
lemma rounds_follow (id target : NodeId) (rounds : Nat) (p : Progress)
    (start : p.steps ≤ limits.steps) (enough : limits.steps + 1 ≤ p.steps + rounds) :
    ∃ log, Runs process limits depth (.rounds id target) p log
      (((Run.repeatWhile limits.steps (Run.compute (holds process · id)) (body id target)
        rounds).outcome p).1.map fun _ => none)
      ((Run.repeatWhile limits.steps (Run.compute (holds process · id)) (body id target)
        rounds).outcome p).2 := by
  induction rounds generalizing p with
  | zero => omega
  | succ rounds ih =>
    rw [Run.repeatWhile]
    cases condition : holds process p.source id with
    | error e =>
      rw [outcome_compute_error condition]
      exact ⟨_, .noLoopCondition condition⟩
    | ok holds =>
      rw [outcome_compute_ok condition]
      cases holds with
      | false => exact ⟨_, .roundsEnd condition⟩
      | true =>
        rw [if_pos rfl]
        by_cases spent : limits.steps < p.steps + 1
        · rw [outcome_bind_error (outcome_tick_spent spent)]
          exact ⟨_, .roundSpent condition spent⟩
        · have within : p.tick.steps ≤ limits.steps := Nat.le_of_not_lt spent
          rw [outcome_bind_ok (outcome_tick within)]
          obtain ⟨log, run⟩ := hbody id target p.tick within
          revert run
          cases eq : (body id target).outcome p.tick with
          | mk out p' =>
            cases out with
            | error e =>
              intro run
              rw [outcome_bind_error eq]
              exact ⟨_, .broken condition within run⟩
            | ok u =>
              intro run
              rw [outcome_bind_ok eq]
              have taken : p'.steps = p.steps + 1 + _ := run.kept.steps
              obtain ⟨log', runs⟩ := ih p' (run.within within) (by omega)
              exact ⟨_, .round condition within run runs⟩

/-- Copying a section follows the rules if running a block does. -/
lemma copySection_follows (id target : NodeId) :
    Follows process limits depth (.copy id target) (fun _ => none)
      (copySection process body target id) := by
  intro p start
  rw [copySection]
  cases flag : isScriptOnly process p.source id with
  | error e =>
    rw [outcome_look_error flag]
    exact ⟨_, .noFlag flag⟩
  | ok skipped =>
    rw [outcome_look_ok flag]
    cases skipped with
    | true => exact ⟨_, .skipped flag⟩
    | false =>
      rw [if_neg (by decide)]
      cases head : headerOf process p.source id with
      | error e =>
        rw [outcome_look_error head]
        exact ⟨_, .noHeader flag head⟩
      | ok header =>
        rw [outcome_look_ok head]
        cases add : (Edit.addSection target header.name header.value).apply p.result with
        | mk out result =>
          cases out with
          | error e =>
            rw [outcome_edit_error add]
            exact ⟨_, .refused flag head add⟩
          | ok copied =>
            rw [outcome_edit_ok add]
            cases attributes : (appendAttributes copied header.attributes).apply result with
            | mk out result' =>
              cases out with
              | error e =>
                rw [outcome_edit_error attributes]
                exact ⟨_, .noAttributes flag head add attributes⟩
              | ok u =>
                rw [outcome_edit_ok attributes]
                obtain ⟨log, run⟩ := hbody id copied { p with result := result' } start
                exact ⟨_, .copied flag head add attributes run⟩

/-- An instruction follows the rules. -/
lemma carryOut_follows (control : Control) (before : Option Bool) (id target : NodeId) :
    Follows process limits depth (.act control before id target) (fun after => after)
      (carryOut process limits body target id before control) := by
  intro p start
  cases control with
  | whenTrue =>
    rw [carryOut]
    cases condition : holds process p.source id with
    | error e =>
      rw [outcome_compute_error condition]
      exact ⟨_, .noCondition condition⟩
    | ok taken =>
      rw [outcome_compute_ok condition]
      cases taken with
      | false => exact ⟨_, .notTaken condition⟩
      | true =>
        obtain ⟨log, run⟩ := hbody id target p start
        have taken : Runs process limits depth (.act .whenTrue before id target) p log _ _ :=
          .taken condition run
        show ∃ log, Runs process limits depth _ p log
          (((body id target >>= fun _ => pure (some true)).outcome p).1.map fun after => after)
          ((body id target >>= fun _ => pure (some true)).outcome p).2
        rw [outcome_bind_pure, map_map]
        rw [map_map] at taken
        exact ⟨_, taken⟩
  | otherwise =>
    cases before with
    | none => exact ⟨_, .orphan⟩
    | some taken =>
      cases taken with
      | true => exact ⟨_, .done⟩
      | false =>
        obtain ⟨log, run⟩ := hbody id target p start
        rw [carryOut, outcome_bind_pure, map_map]
        exact ⟨_, .otherwise run⟩
  | repeatWhile =>
    obtain ⟨log, run⟩ := rounds_follow hbody id target (limits.steps + 1) p start (by omega)
    rw [carryOut, outcome_bind_pure, map_map]
    exact ⟨_, .loop run⟩
  | assign =>
    rw [carryOut]
    cases found : assignmentOf process p.source id with
    | error e =>
      rw [outcome_compute_error found]
      exact ⟨_, .noAssignment found⟩
    | ok a =>
      rw [outcome_compute_ok found]
      obtain ⟨node, value⟩ := a
      dsimp only
      rw [outcome_bind_pure, map_map]
      exact ⟨_, .assign found rfl⟩
  | call =>
    rw [carryOut]
    cases found : calleeOf process p.source id with
    | error e =>
      rw [outcome_look_error found]
      exact ⟨_, .noCallee found⟩
    | ok callee =>
      rw [outcome_look_ok found, outcome_bind_pure, map_map]
      obtain ⟨log, run⟩ := hbody callee target p start
      exact ⟨_, .call found run⟩

/-- A visit follows the rules. -/
lemma visit_follows (before : Option Bool) (id target : NodeId) :
    Follows process limits depth (.visit before id target) (fun after => after)
      (visit process limits body target id before) := by
  intro p start
  rw [visit]
  by_cases spent : limits.steps < p.steps + 1
  · rw [outcome_bind_error (outcome_tick_spent spent)]
    exact ⟨_, .visitSpent spent⟩
  · have within : p.tick.steps ≤ limits.steps := Nat.le_of_not_lt spent
    rw [outcome_bind_ok (outcome_tick within), outcome_see]
    cases live : p.source.live? id with
    | none =>
      rw [show p.tick.source.live? id = none from live]
      exact ⟨_, .gone within live⟩
    | some d =>
      rw [show p.tick.source.live? id = some d from live]
      dsimp only [Option.map_some]
      cases control : Control.ofName? d.name with
      | some c =>
        obtain ⟨log, run⟩ := carryOut_follows hbody c before id target p.tick within
        exact ⟨_, .control within live control run⟩
      | none =>
        dsimp only
        cases reserved : isReserved d.name with
        | true => exact ⟨_, .unknown within live control reserved⟩
        | false =>
          obtain ⟨log, run⟩ := copySection_follows hbody id target p.tick within
          rw [if_neg (by decide), outcome_bind_pure, map_map]
          exact ⟨_, .ordinary within live control reserved run⟩

/-- Visits of sections follow the rules. -/
lemma visitAll_follows (ids : List NodeId) (before : Option Bool) (target : NodeId) :
    Follows process limits depth (.visits before ids target) (fun _ => none)
      (visitAll process limits body target before ids) := by
  induction ids generalizing before with
  | nil => exact fun p _ => ⟨_, .visited⟩
  | cons id ids ih =>
    intro p start
    obtain ⟨log, run⟩ := visit_follows hbody before id target p start
    rw [visitAll]
    revert run
    cases eq : (visit process limits body target id before).outcome p with
    | mk out p' =>
      cases out with
      | error e =>
        intro run
        rw [outcome_bind_error eq]
        exact ⟨_, .halted run⟩
      | ok after =>
        intro run
        rw [outcome_bind_ok eq]
        obtain ⟨log', runs⟩ := ih after p' (run.within start)
        exact ⟨_, .next run runs⟩

end

/-- The body of a section in a block of a depth follows the rules, in the room that is left. -/
lemma runBody_follows (room depth : Nat) (enough : depth + room = limits.depth + 1)
    (id target : NodeId) :
    Follows process limits depth (.block id target) (fun _ => none)
      (runBody process limits room id target) := by
  induction room generalizing depth id target with
  | zero => exact fun p _ => ⟨_, .tooDeep (by omega)⟩
  | succ room ih =>
    intro p start
    rw [runBody, outcome_see]
    obtain ⟨log, run⟩ := visitAll_follows (ih (depth + 1) (by omega)) (p.source.childrenOf id) none
      target p start
    exact ⟨_, .block (by omega) run⟩

/-- Running a script follows the rules of scripts to an end. -/
lemma execute_executes (process : Host) (limits : Limits) (source result : Configuration) :
    ∃ log, Executes process limits source result log (execute process limits source result).1
      (execute process limits source result).2 := by
  show ∃ log, Executes process limits source result log
    ((runRoot process limits).outcome ⟨source, result, 0⟩).1
    ((runRoot process limits).outcome ⟨source, result, 0⟩).2
  rw [runRoot]
  cases head : headerOf process source root with
  | error e =>
    rw [outcome_look_error head]
    exact ⟨_, .noHeader head⟩
  | ok header =>
    rw [outcome_look_ok head]
    cases prepared : (prepare header).apply result with
    | mk out result' =>
      cases out with
      | error e =>
        rw [outcome_edit_error prepared]
        exact ⟨_, .refused head prepared⟩
      | ok u =>
        rw [outcome_edit_ok prepared]
        have follows : Follows process limits 0 (.block root root) _ _ :=
          runBody_follows (limits.depth + 1) 0 (Nat.zero_add _) root root
        obtain ⟨log, run⟩ := follows ⟨source, result', 0⟩ (Nat.zero_le _)
        exact ⟨_, .run head prepared run⟩

/-! ## The budget -/

section

variable {source result : Configuration} {log : List Event} {out : Except (Exit ConfigError) Unit}
  {p : Progress}

/-- The log of a whole run accounts for its steps, its sections and the depth of its blocks. -/
lemma Executes.kept (h : Executes process limits source result log out p) :
    Kept limits ⟨source, result, 0⟩ log p := by
  cases h with
  | noHeader => exact .refl _
  | refused _ prepared => exact .result (sectionCount_prepare prepared)
  | run _ prepared run =>
    have before : Kept limits ⟨source, result, 0⟩ [] _ := .result (sectionCount_prepare prepared)
    exact before.append run.kept

/-- A section is added in a step of its own. -/
lemma Executes.added_le (h : Executes process limits source result log out p) :
    log.countP Event.addsSection ≤ log.countP Event.takesStep := by
  cases h with
  | noHeader | refused => exact Nat.le_refl 0
  | run _ _ run => exact run.added_le

/-- A whole run without a timeout is within its budget. -/
lemma Executes.within (h : Executes process limits source result log out p)
    (finished : ∀ n, out ≠ .error (.fails (.scriptTimeout n))) : p.steps ≤ limits.steps := by
  cases h with
  | noHeader | refused => exact Nat.zero_le _
  | run _ _ run =>
    obtain within | ⟨-, timeout⟩ := run.ends (Nat.zero_le _)
    · exact within
    · cases out with
      | ok => cases timeout
      | error e =>
        cases timeout
        exact absurd rfl (finished _)

/-- A timeout that no macro answers with is that of the first step beyond the budget. -/
lemma Executes.timeout (h : Executes process limits source result log out p)
    {n : Nat} (macros : source.provider.Untimed n)
    (timeout : out = .error (.fails (.scriptTimeout n))) :
    n = limits.steps + 1 ∧ p.steps = limits.steps + 1 := by
  cases h with
  | noHeader fault =>
    cases timeout
    exact absurd fault (untimed_headerOf macros _)
  | refused _ prepared =>
    cases timeout
    exact absurd rfl (ne_timeout (prompt_prepare _) prepared)
  | run _ _ run =>
    cases timeout
    exact run.timeout (Nat.zero_le _) macros rfl

end

end ConfTree.Script
