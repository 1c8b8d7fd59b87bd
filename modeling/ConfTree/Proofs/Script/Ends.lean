import ConfTree.Proofs.Expression.Steps
import ConfTree.Proofs.Script.Conditionals

/-!
# How runs end

Every run comes to an end. It panics exactly if it comes to a condition or to an assignment whose
expression does (`execute_panics_iff`), and it ends with a timeout by its budget or because a macro
answered with one. What it did until then is told by its log (`execute_within_budget`).
-/

namespace ConfTree.Script

open ConfTree.Configuration Relation

variable {process : Host} {limits : Limits}

/-! ## Panics -/

/-- The place evaluates the expression. -/
inductive Place.Computes (process : Host) : Place → String → Prop where
  | condition {depth before id target p text} :
    p.source.value? process id = .ok text →
    Computes process ⟨depth, .act .whenTrue before id target, p⟩ (text.getD "")
  | round {depth id target p text} :
    p.source.value? process id = .ok text →
    Computes process ⟨depth, .rounds id target, p⟩ (text.getD "")
  | assignment {depth before id target p path text} :
    attributeValue process p.source id "path" = .ok (some path) →
    attributeValue process p.source id "to" = .ok text →
    Computes process ⟨depth, .act .assign before id target, p⟩ (text.getD "")

/-- The run from a place on comes to an expression that panics. -/
def Place.Panics (process : Host) (limits : Limits) (place : Place) : Prop :=
  ∃ place' text, ReflTransGen (Calls process limits) place place' ∧
    place'.Computes process text ∧ Expression.Panics text

/-- A lifted result is no panic. -/
lemma lift_ne_panics {α : Type} {out : Except ConfigError α} : Exit.lift out ≠ .error .panics := by
  cases out <;> nofun

/-- An expression panics as its evaluation does. -/
lemma calculate_panics_iff {text : String} :
    calculate text = .error .panics ↔ Expression.Panics text := by
  rw [← Expression.evaluate_panics_iff, calculate]
  rcases Expression.evaluate text with (_ | _) | _
  · exact ⟨nofun, nofun⟩
  · exact ⟨fun _ => rfl, fun _ => rfl⟩
  · exact ⟨nofun, nofun⟩

/-- A condition panics exactly if its expression does. -/
lemma holds_panics_iff {conf : Configuration} {id : NodeId} :
    holds process conf id = .error .panics ↔
      ∃ text, conf.value? process id = .ok text ∧ Expression.Panics (text.getD "") := by
  simp only [holds, bind_eq_error_iff, lift_ne_panics, false_or, Exit.lift_eq_ok,
    calculate_panics_iff]
  exact exists_congr fun text => and_congr_right fun _ => or_iff_left nofun

/-- An assignment with a path panics exactly if its expression does. -/
lemma assignmentOf_panics_iff {conf : Configuration} {id : NodeId} :
    assignmentOf process conf id = .error .panics ↔
      ∃ path text, attributeValue process conf id "path" = .ok (some path) ∧
        attributeValue process conf id "to" = .ok text ∧ Expression.Panics (text.getD "") := by
  simp only [assignmentOf, bind_eq_error_iff, lift_ne_panics, false_or, Exit.lift_eq_ok]
  constructor
  · rintro ⟨_ | path, found, panics⟩
    · cases panics
    · simp only [bind_eq_error_iff, lift_ne_panics, false_or, Exit.lift_eq_ok,
        calculate_panics_iff] at panics
      obtain ⟨text, assigned, panics | ⟨value, -, target, -, panics⟩⟩ := panics
      · exact ⟨path, text, found, assigned, panics⟩
      · cases target <;> cases panics
  · rintro ⟨path, text, found, assigned, panics⟩
    refine ⟨some path, found, ?_⟩
    simp only [bind_eq_error_iff, lift_ne_panics, false_or, Exit.lift_eq_ok, calculate_panics_iff]
    exact ⟨text, assigned, .inl panics⟩

/-- A place panics if one that it calls does. -/
lemma Calls.panics {place place' : Place} (h : Calls process limits place place')
    (panics : place'.Panics process limits) : place.Panics process limits := by
  obtain ⟨place'', text, calls, computes, panics⟩ := panics
  exact ⟨place'', text, .head h calls, computes, panics⟩

/-- A task that panics comes to an expression that does. -/
lemma Runs.panics {depth : Nat} {task : Task} {p p' : Progress} {log : List Event} {out : Outcome}
    (h : Runs process limits depth task p log out p') (ended : out = .error .panics) :
    Place.Panics process limits ⟨depth, task, p⟩ := by
  induction h with
  | tooDeep | visited | visitSpent | gone | unknown => cases ended
  | noFlag | skipped | noHeader | refused | noAttributes => cases ended
  | notTaken | orphan | done | noCallee | roundsEnd | roundSpent => cases ended
  | block shallow _ ih => exact (Calls.block shallow).panics (ih ended)
  | halted _ ih => exact Calls.first.panics (ih ended)
  | next visit _ _ ih' => exact (Calls.next visit).panics (ih' ended)
  | control within live control _ ih => exact (Calls.control within live control).panics (ih ended)
  | ordinary within live plain free _ ih =>
    exact (Calls.ordinary within live plain free).panics (ih ended)
  | copied flag head add attributes _ ih =>
    exact (Calls.copied flag head add attributes).panics (ih ended)
  | otherwise _ ih => exact Calls.otherwise.panics (ih ended)
  | loop _ ih => exact Calls.loop.panics (ih ended)
  | call found _ ih => exact (Calls.call found).panics (ih ended)
  | broken condition within _ ih => exact (Calls.round condition within).panics (ih ended)
  | round condition within body _ _ ih' =>
    exact (Calls.again condition within body).panics (ih' ended)
  | @taken _ _ _ _ _ _ out _ condition _ ih =>
    cases out with
    | ok => cases ended
    | error e =>
      cases ended
      exact (Calls.taken condition).panics (ih rfl)
  | noCondition condition =>
    cases ended
    obtain ⟨text, evaluated, panics⟩ := holds_panics_iff.1 condition
    exact ⟨_, _, .refl, .condition evaluated, panics⟩
  | noLoopCondition condition =>
    cases ended
    obtain ⟨text, evaluated, panics⟩ := holds_panics_iff.1 condition
    exact ⟨_, _, .refl, .round evaluated, panics⟩
  | noAssignment found =>
    cases ended
    obtain ⟨path, text, addressed, evaluated, panics⟩ := assignmentOf_panics_iff.1 found
    exact ⟨_, _, .refl, .assignment addressed evaluated, panics⟩
  | @assign _ _ _ _ _ _ _ out => cases out <;> cases ended

/-- A place whose expression panics does so at once. -/
lemma Place.Computes.runs {place : Place} {text : String} (h : place.Computes process text)
    (panics : Expression.Panics text) :
    Runs process limits place.depth place.task place.progress [] (.error .panics)
      place.progress := by
  cases h with
  | condition evaluated => exact .noCondition (holds_panics_iff.2 ⟨_, evaluated, panics⟩)
  | round evaluated => exact .noLoopCondition (holds_panics_iff.2 ⟨_, evaluated, panics⟩)
  | assignment addressed evaluated =>
    exact .noAssignment (assignmentOf_panics_iff.2 ⟨_, _, addressed, evaluated, panics⟩)

/-- A run panics exactly if it comes to a condition or to an assignment whose expression does. -/
lemma execute_panics_iff {source result : Configuration} :
    (execute process limits source result).1 = .error .panics ↔
      ∃ place text, ComesTo process limits source result place ∧
        place.Computes process text ∧ Expression.Panics text := by
  constructor
  · obtain ⟨log, run⟩ := execute_executes process limits source result
    generalize execute process limits source result = ended at run ⊢
    obtain ⟨out, p⟩ := ended
    rintro rfl
    cases run with
    | run head prepared run =>
      obtain ⟨place, text, calls, computes, panics⟩ := run.panics rfl
      exact ⟨place, text, ⟨_, _, head, prepared, calls⟩, computes, panics⟩
  · rintro ⟨place, text, comes, computes, panics⟩
    rw [comes.fails (computes.runs panics)]

/-! ## The budget -/

/-- Running a script comes to an end by the rules of scripts, with a log of what happened, and does
not panic unless it comes to an expression that does. Every visit of a child of a block and every
round of a loop took one step. A run without a timeout took no more steps than its budget has, and a
timeout tells of the first step beyond, if it is none that a macro of the script answers with. No
more sections were added to the result than steps were taken, and no block was run deeper than the
limit. -/
theorem execute_within_budget (process : Host) (limits : Limits)
    (source result : Configuration) :
    ∃ log, Executes process limits source result log (execute process limits source result).1
        (execute process limits source result).2 ∧
      ((execute process limits source result).1 = .error .panics →
        ∃ place text, ComesTo process limits source result place ∧
          place.Computes process text ∧ Expression.Panics text) ∧
      (execute process limits source result).2.steps = log.countP Event.takesStep ∧
      ((∀ n, (execute process limits source result).1 ≠ .error (.fails (.scriptTimeout n))) →
        (execute process limits source result).2.steps ≤ limits.steps) ∧
      (∀ n, (execute process limits source result).1 = .error (.fails (.scriptTimeout n)) →
        n = limits.steps + 1 ∧
            (execute process limits source result).2.steps = limits.steps + 1 ∨
          ∃ instant call input,
            source.provider instant call input = .error (.scriptTimeout n)) ∧
      (execute process limits source result).2.result.sectionCount =
        result.sectionCount + log.countP Event.addsSection ∧
      log.countP Event.addsSection ≤ (execute process limits source result).2.steps ∧
      ∀ depth, .block depth ∈ log → depth ≤ limits.depth := by
  obtain ⟨log, run⟩ := execute_executes process limits source result
  have kept := run.kept
  have steps : (execute process limits source result).2.steps = log.countP Event.takesStep :=
    kept.steps.trans (Nat.zero_add _)
  refine ⟨log, run, execute_panics_iff.1, steps, run.within, fun n timeout => ?_, kept.sections,
    steps ▸ run.added_le, kept.depth⟩
  by_cases macros : source.provider.Untimed n
  · exact .inl (run.timeout macros timeout)
  · simp only [Macro.Provider.Untimed, ConfTree.Untimed, not_forall, not_not] at macros
    exact .inr macros

/-- The built-in macros do not answer with a timeout. -/
lemma untimed_builtin (n : Nat) : (Macro.builtin none).Untimed n := by
  intro instant call input fails
  obtain ⟨_, _, ⟨⟩⟩ | ⟨_, ⟨⟩⟩ | ⟨_, ⟨⟩, -⟩ := Macro.builtin_error fails

/-- A loop whose condition never changes, with an empty body. -/
theorem execute_within_budget_loop :
    (execute .bare ⟨3, 2⟩ ((withRoot "base").addNode .sectionKind root "_loop" (some "true"))
        empty).1 = .error (.fails (.scriptTimeout 4)) ∧
      (execute .bare ⟨3, 2⟩ ((withRoot "base").addNode .sectionKind root "_loop" (some "true"))
        empty).2.steps = 4 := by
  have timeout : (execute .bare ⟨3, 2⟩ ((withRoot "base").addNode .sectionKind root "_loop"
      (some "true")) empty).1 = .error (.fails (.scriptTimeout 4)) := by decide +kernel
  obtain ⟨log, -, -, -, -, budget, -⟩ := execute_within_budget .bare ⟨3, 2⟩
    ((withRoot "base").addNode .sectionKind root "_loop" (some "true")) empty
  refine ⟨timeout, ?_⟩
  obtain ⟨-, steps⟩ | ⟨instant, call, input, answer⟩ := budget 4 timeout
  · exact steps
  · exact absurd answer (untimed_builtin 4 instant call input)

/-- A condition that divides the least integer by minus one, and one whose macro answers with a
timeout of its own. -/
theorem not_execute_within_budget :
    let divides := (withRoot "base").operateAll
      [(.bare, .addSection 0 "_if" (some "(-9223372036854775807-1)/(-1)"))]
    let calls := (withRoot "base").operateAll
      [(.bare, .setProvider fun _ _ _ => .error (.scriptTimeout 7)),
        (.bare, .addSection 0 "_if" (some "$(::late)"))]
    (execute .bare ⟨9, 2⟩ divides empty).1 = .error .panics ∧
      (execute .bare ⟨9, 2⟩ calls empty).1 = .error (.fails (.scriptTimeout 7)) ∧
      (execute .bare ⟨9, 2⟩ calls empty).2.steps = 1 := by
  decide +kernel

end ConfTree.Script
