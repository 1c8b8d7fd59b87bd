import ConfTree.Proofs.Operation.Reachable
import ConfTree.Proofs.Script.Assignments
import ConfTree.Proofs.Script.Determinism
import ConfTree.Proofs.Tree.Shape

/-!
# Conditions and their alternatives

A block hands the outcome of a condition on to the section directly behind it and to nothing else.
So an alternative with no condition directly before it ends the run, and a condition with its
alternative runs as one construct, `choose`, apart from all that stands around the two
(`execute_pairs`). Both hold since a visit of any other section hands on nothing (`visit_plain`),
and since a run leaves the names and the lists of its script as they are.
-/

namespace ConfTree.Script

open ConfTree.Configuration Relation Run

/-- The instruction that a section is by its name. -/
def controlOf? (conf : Configuration) (id : NodeId) : Option Control :=
  (conf.live? id).bind fun d => Control.ofName? d.name

/-- Visits a condition and its alternative. The condition is evaluated once, before either body is
run, and one of the two bodies is run. -/
def choose (process : Host) (limits : Limits) (body : Body) (target yes no : NodeId) :
    Run Unit := do
  Run.tick limits.steps
  if ← Run.compute (holds process · yes) then
    body yes target
    Run.tick limits.steps
  else
    Run.tick limits.steps
    body no target

variable {process : Host} {limits : Limits}

/-! ## Scripts with other values -/

section

variable {conf conf' : Configuration} (same : conf'.skeleton = conf.skeleton) (id : NodeId)

include same

/-- A section of a script with other values is the same instruction. -/
lemma controlOf?_of_skeleton : controlOf? conf' id = controlOf? conf id := by
  have named (c : Configuration) : controlOf? c id =
      ((c.live? id).map NodeData.skeleton).bind fun d => Control.ofName? d.name := by
    rw [Option.bind_map]
    rfl
  rw [named, named, live?_of_skeleton same]

/-- A section of a script with other values has the same child sections. -/
lemma childrenOf_of_skeleton : conf'.childrenOf id = conf.childrenOf id := by
  have listed (c : Configuration) : c.childrenOf id =
      (((c.live? id).map NodeData.skeleton).map (·.children.toList)).getD [] := by
    rw [Option.map_map]
    rfl
  rw [listed, listed, live?_of_skeleton same]

/-- With the same skeleton the same nodes are live. -/
lemma isSome_live?_of_skeleton : (conf'.live? id).isSome = (conf.live? id).isSome := by
  have live := congrArg Option.isSome (live?_of_skeleton same id)
  simpa using live

end

/-- What a section lists is live. -/
lemma isSome_live?_of_child {conf : Configuration} (wf : conf.WellFormed) {p id : NodeId}
    (h : id ∈ conf.childrenOf p) : (conf.live? id).isSome := by
  cases live : conf.live? p with
  | none => simp [childrenOf, live] at h
  | some pd =>
    rw [childrenOf_eq live] at h
    obtain ⟨d, found, -⟩ := wf.listed p pd _ id live h
    rw [found]
    rfl

/-! ## Visits -/

section

variable {body : Body} {depth : Nat} {target id : NodeId} {before after : Option Bool}
  {p p' : Progress}

/-- A visit of a section that is no condition hands on nothing. -/
lemma visit_plain (live : (p.source.live? id).isSome)
    (plain : controlOf? p.source id ≠ some .whenTrue)
    (visited : (visit process limits body target id before).outcome p = (.ok after, p')) :
    after = none := by
  by_cases spent : limits.steps < p.steps + 1
  · rw [visit, outcome_bind_error (outcome_tick_spent spent)] at visited
    cases visited
  obtain ⟨d, live⟩ := Option.isSome_iff_exists.1 live
  rw [controlOf?, live] at plain
  rw [outcome_visit (Nat.le_of_not_lt spent) live] at visited
  -- What ends with handing on nothing hands on nothing.
  have nothing {run : Run Unit} {q : Progress}
      (h : (run >>= fun _ => pure none).outcome q = (.ok after, p')) : after = none := by
    rw [outcome_bind_pure] at h
    generalize run.outcome q = ended at h
    obtain ⟨_ | _, _⟩ := ended <;> cases h
    rfl
  have computed {α : Type} {g : Configuration → Except (Exit ConfigError) α}
      {f : α → Run (Option Bool)} {q : Progress}
      (h : (Run.compute g >>= f).outcome q = (.ok after, p')) :
      ∃ a, (f a).outcome q = (.ok after, p') := by
    cases found : g q.source with
    | error e =>
      rw [outcome_compute_error found] at h
      cases h
    | ok a =>
      rw [outcome_compute_ok found] at h
      exact ⟨a, h⟩
  cases control : Control.ofName? d.name with
  | none =>
    rw [control] at visited
    dsimp only at visited
    split at visited
    · obtain ⟨_, h⟩ := computed visited
      exact nothing h
    · exact nothing visited
  | some c =>
    rw [control] at visited
    cases c with
    | whenTrue => exact absurd control plain
    | otherwise =>
      cases before with
      | none =>
        obtain ⟨_, h⟩ := computed visited
        cases h
        rfl
      | some taken =>
        cases taken with
        | true =>
          cases visited
          rfl
        | false => exact nothing visited
    | repeatWhile => exact nothing visited
    | assign =>
      obtain ⟨_, h⟩ := computed visited
      exact nothing h
    | call =>
      obtain ⟨_, h⟩ := computed visited
      exact nothing h

/-- A visit of an instruction within the budget carries it out. -/
lemma outcome_act {control : Control} (within : p.steps + 1 ≤ limits.steps)
    (instructs : controlOf? p.source id = some control) :
    (visit process limits body target id before).outcome p =
      (carryOut process limits body target id before control).outcome p.tick := by
  obtain ⟨d, live, named⟩ := Option.bind_eq_some_iff.1 instructs
  rw [outcome_visit within live, named]

/-- Beyond the budget a visit ends as its step does. -/
lemma outcome_visit_spent {α : Type} {f : Option Bool → Run α} {g : Unit → Run α}
    (spent : limits.steps < p.steps + 1) :
    (visit process limits body target id before >>= f).outcome p =
      (Run.tick limits.steps >>= g).outcome p := by
  have stop := outcome_tick_spent spent
  rw [visit, bind_assoc, outcome_bind_error stop, outcome_bind_error stop]

/-- A part of a run leaves its script as it is but for values and flags, and stays within the
budget if it goes on. -/
lemma Follows.keeps {task : Task} {α : Type} {handed : α → Option Bool} {run : Run α}
    {out : Except (Exit ConfigError) α} (follows : Follows process limits depth task handed run)
    (start : p.steps ≤ limits.steps) (ran : run.outcome p = (out, p')) :
    p'.source.skeleton = p.source.skeleton ∧ (out.isOk → p'.steps ≤ limits.steps) := by
  obtain ⟨log, runs⟩ := follows p start
  rw [ran] at runs
  refine ⟨runs.revalued.skeleton, fun ok => ?_⟩
  cases out with
  | error e => cases ok
  | ok a => exact runs.within start

/-- Behind a condition that held, the body of the alternative is not run. -/
lemma visitAll_held (rest : List NodeId) (instructs : controlOf? p.source id = some .otherwise) :
    (visitAll process limits body target (some true) (id :: rest)).outcome p =
      (do Run.tick limits.steps
          visitAll process limits body target none rest : Run Unit).outcome p := by
  rw [visitAll]
  by_cases spent : limits.steps < p.steps + 1
  · exact outcome_visit_spent spent
  · have within := Nat.le_of_not_lt spent
    rw [outcome_bind, outcome_act within instructs, outcome_bind_ok (outcome_tick within)]
    rfl

/-- Behind a condition that did not hold, the body of the alternative is run. -/
lemma visitAll_failed (rest : List NodeId) (instructs : controlOf? p.source id = some .otherwise) :
    (visitAll process limits body target (some false) (id :: rest)).outcome p =
      (do Run.tick limits.steps
          body id target
          visitAll process limits body target none rest : Run Unit).outcome p := by
  rw [visitAll]
  by_cases spent : limits.steps < p.steps + 1
  · exact outcome_visit_spent spent
  · have within := Nat.le_of_not_lt spent
    rw [outcome_bind, outcome_act within instructs, outcome_bind_ok (outcome_tick within),
      ← outcome_bind, carryOut, bind_assoc]
    rfl

variable (hbody : ∀ id target,
  Follows process limits (depth + 1) (.block id target) (fun _ => none) (body id target))

include hbody

/-- Visits of sections that end with one that is no condition hand on nothing to an alternative
behind them, and it ends the run. -/
lemma visitAll_orphan {q : Progress} {front : List NodeId} (rest : List NodeId)
    (start : p.steps ≤ limits.steps) (live : ∀ x ∈ front, (p.source.live? x).isSome)
    (first : front = [] → before = none)
    (plain : ∀ last ∈ front.getLast?, controlOf? p.source last ≠ some .whenTrue)
    (instructs : controlOf? p.source id = some .otherwise)
    (visited : (visitAll process limits body target before front).outcome p = (.ok (), q))
    (within : q.steps < limits.steps) :
    (visitAll process limits body target before (front ++ id :: rest)).outcome p =
      (.error (.fails (.orphanElse (q.source.rootPath id))), q.tick) := by
  induction front generalizing before p with
  | nil =>
    cases visited
    rw [first rfl, List.nil_append, visitAll]
    exact outcome_bind_error (outcome_act within instructs)
  | cons x front ih =>
    rw [visitAll] at visited
    rw [List.cons_append, visitAll]
    cases ran : (visit process limits body target x before).outcome p with
    | mk out p' =>
      cases out with
      | error e =>
        rw [outcome_bind_error ran] at visited
        cases visited
      | ok after =>
        rw [outcome_bind_ok ran] at visited ⊢
        obtain ⟨same, steps⟩ := (visit_follows hbody before x target).keeps start ran
        refine ih (steps rfl) (fun y hy => ?_) (fun alone => ?_) (fun last hlast => ?_) ?_ visited
        · rw [isSome_live?_of_skeleton same]
          exact live y (List.mem_cons_of_mem _ hy)
        · subst alone
          exact visit_plain (live x List.mem_cons_self) (plain x rfl) ran
        · rw [controlOf?_of_skeleton same]
          refine plain last ?_
          rw [List.getLast?_cons, Option.mem_def.1 hlast]
          rfl
        · rw [controlOf?_of_skeleton same]
          exact instructs

/-- A condition and its alternative are visited as one construct, which takes nothing from what
stands before it and hands nothing on. -/
lemma visitAll_choose {yes no : NodeId} (rest : List NodeId)
    (condition : controlOf? p.source yes = some .whenTrue)
    (alternative : controlOf? p.source no = some .otherwise) :
    (visitAll process limits body target before (yes :: no :: rest)).outcome p =
      (do choose process limits body target yes no
          visitAll process limits body target none rest : Run Unit).outcome p := by
  rw [visitAll, choose, bind_assoc]
  by_cases spent : limits.steps < p.steps + 1
  · exact outcome_visit_spent spent
  have within := Nat.le_of_not_lt spent
  rw [outcome_bind, outcome_act within condition, outcome_bind_ok (outcome_tick within), carryOut,
    bind_assoc]
  cases holding : holds process p.tick.source yes with
  | error e => rw [outcome_compute_error holding, outcome_compute_error holding]
  | ok taken =>
    rw [outcome_compute_ok holding, outcome_compute_ok holding]
    cases taken with
    | true =>
      cases ran : (body yes target).outcome p.tick with
      | mk out p' =>
        rw [if_pos rfl, if_pos rfl, bind_assoc, outcome_bind (body yes target), ran]
        obtain ⟨same, -⟩ := (hbody yes target).keeps within ran
        cases out with
        | error e => rw [outcome_bind_error ran]
        | ok u =>
          rw [outcome_bind_ok ran]
          refine visitAll_held rest ?_
          rw [controlOf?_of_skeleton same]
          exact alternative
    | false =>
      refine (visitAll_failed rest ?_).trans ?_
      · exact alternative
      · rw [if_neg (by decide), bind_assoc]

/-- A condition and its alternative behind other sections are visited as one construct. -/
lemma visitAll_pair {yes no : NodeId} (front rest : List NodeId) (start : p.steps ≤ limits.steps)
    (condition : controlOf? p.source yes = some .whenTrue)
    (alternative : controlOf? p.source no = some .otherwise) :
    (visitAll process limits body target before (front ++ yes :: no :: rest)).outcome p =
      (do visitAll process limits body target before front
          choose process limits body target yes no
          visitAll process limits body target none rest : Run Unit).outcome p := by
  induction front generalizing before p with
  | nil => exact visitAll_choose hbody rest condition alternative
  | cons x front ih =>
    rw [List.cons_append, visitAll, visitAll, bind_assoc]
    cases ran : (visit process limits body target x before).outcome p with
    | mk out p' =>
      cases out with
      | error e => rw [outcome_bind_error ran, outcome_bind_error ran]
      | ok after =>
        rw [outcome_bind_ok ran, outcome_bind_ok ran]
        obtain ⟨same, steps⟩ := (visit_follows hbody before x target).keeps start ran
        rw [← controlOf?_of_skeleton same] at condition alternative
        exact ih (steps rfl) condition alternative

end

/-! ## Whole runs -/

/-- A place starts within the budget if the place that calls it does. -/
lemma Calls.within {place place' : Place} (h : Calls process limits place place')
    (start : place.progress.steps ≤ limits.steps) : place'.progress.steps ≤ limits.steps := by
  cases h with
  | next visit => exact visit.within start
  | again _ within body => exact body.within within
  | control within | ordinary within | round _ within => exact within
  | _ => exact start

/-- A run comes to no place beyond its steps. -/
lemma ComesTo.within {source result : Configuration} {place : Place}
    (h : ComesTo process limits source result place) : place.progress.steps ≤ limits.steps := by
  obtain ⟨header, result', -, -, calls⟩ := h
  induction calls with
  | refl => exact Nat.zero_le _
  | tail _ call ih => exact call.within ih

/-- A place that fails ends the place that calls it. -/
lemma Calls.fails {place place' : Place} (h : Calls process limits place place')
    {log : List Event} {e : Exit ConfigError} {p : Progress}
    (failed : Runs process limits place'.depth place'.task place'.progress log (.error e) p) :
    ∃ log', Runs process limits place.depth place.task place.progress log' (.error e) p := by
  cases h with
  | block shallow => exact ⟨_, .block shallow failed⟩
  | first => exact ⟨_, .halted failed⟩
  | next visit => exact ⟨_, .next visit failed⟩
  | control within live control => exact ⟨_, .control within live control failed⟩
  | ordinary within live plain free => exact ⟨_, .ordinary within live plain free failed⟩
  | copied flag head add attributes => exact ⟨_, .copied flag head add attributes failed⟩
  | taken condition => exact ⟨_, .taken condition failed⟩
  | otherwise => exact ⟨_, .otherwise failed⟩
  | loop => exact ⟨_, .loop failed⟩
  | call found => exact ⟨_, .call found failed⟩
  | round condition within => exact ⟨_, .broken condition within failed⟩
  | again condition within body => exact ⟨_, .round condition within body failed⟩

/-- A place that fails ends every place from which a run comes to it. -/
lemma calls_fail {place place' : Place}
    (calls : ReflTransGen (Calls process limits) place place') {log : List Event}
    {e : Exit ConfigError} {p : Progress}
    (failed : Runs process limits place'.depth place'.task place'.progress log (.error e) p) :
    ∃ log', Runs process limits place.depth place.task place.progress log' (.error e) p := by
  induction calls using ReflTransGen.head_induction_on with
  | refl => exact ⟨log, failed⟩
  | head call _ ih =>
    obtain ⟨log', run⟩ := ih
    exact call.fails run

/-- A place that fails ends the run that comes to it. -/
lemma ComesTo.fails {source result : Configuration} {place : Place}
    (h : ComesTo process limits source result place) {log : List Event} {e : Exit ConfigError}
    {p : Progress}
    (failed : Runs process limits place.depth place.task place.progress log (.error e) p) :
    execute process limits source result = (.error e, p) := by
  obtain ⟨header, result', head, prepared, calls⟩ := h
  obtain ⟨log', run⟩ := calls_fail calls failed
  exact (Executes.run head prepared run).execute_eq

/-- Conditions and alternatives pair strictly in every block that a run comes to. An alternative
ends the run if the section directly before it is no condition, or if it comes first. A condition
with an alternative directly behind it is one construct, which evaluates the condition once and runs
one of the two bodies, and the sections before and behind the two run as they do on their own. -/
theorem execute_pairs {source result : Configuration} {depth : Nat} {block target : NodeId}
    {p : Progress} (reach : Reachable source)
    (comes : ComesTo process limits source result ⟨depth, .block block target, p⟩)
    (shallow : depth ≤ limits.depth) (front : List NodeId) :
    let body := runBody process limits (limits.depth - depth)
    (∀ id rest, source.childrenOf block = front ++ id :: rest →
      controlOf? source id = some .otherwise →
      (∀ last ∈ front.getLast?, controlOf? source last ≠ some .whenTrue) →
      ∀ q, (visitAll process limits body target none front).outcome p = (.ok (), q) →
        q.steps < limits.steps →
        execute process limits source result =
          (.error (.fails (.orphanElse (q.source.rootPath id))), q.tick)) ∧
    ∀ yes no rest, source.childrenOf block = front ++ yes :: no :: rest →
      controlOf? source yes = some .whenTrue → controlOf? source no = some .otherwise →
      (runBody process limits (limits.depth + 1 - depth) block target).outcome p =
        (do visitAll process limits body target none front
            choose process limits body target yes no
            visitAll process limits body target none rest : Run Unit).outcome p := by
  intro body
  have hbody : ∀ id target, Follows process limits (depth + 1) (.block id target) (fun _ => none)
      (body id target) :=
    runBody_follows (limits.depth - depth) (depth + 1) (by omega)
  have start : p.steps ≤ limits.steps := comes.within
  have same : p.source.skeleton = source.skeleton := comes.skeleton
  have room : limits.depth + 1 - depth = limits.depth - depth + 1 := by omega
  have run : (runBody process limits (limits.depth + 1 - depth) block target).outcome p =
      (visitAll process limits body target none (source.childrenOf block)).outcome p := by
    rw [room, runBody, outcome_see, childrenOf_of_skeleton same]
  constructor
  · intro id rest children alternative plain q visited within
    have live : ∀ x ∈ front, (p.source.live? x).isSome := by
      intro x hx
      rw [isSome_live?_of_skeleton same]
      refine isSome_live?_of_child reach.wellFormed (p := block) ?_
      rw [children]
      exact List.mem_append_left _ hx
    have ended := visitAll_orphan hbody rest start live (fun _ => rfl)
      (fun last hlast => by
        rw [controlOf?_of_skeleton same]
        exact plain last hlast)
      (by
        rw [controlOf?_of_skeleton same]
        exact alternative) visited within
    rw [← children, ← run] at ended
    obtain ⟨log, failed⟩ :=
      runBody_follows (limits.depth + 1 - depth) depth (by omega) block target p start
    rw [ended] at failed
    exact comes.fails failed
  · intro yes no rest children condition alternative
    rw [run, children]
    rw [← controlOf?_of_skeleton same] at condition alternative
    exact visitAll_pair hbody front rest start condition alternative

/-- The body of a condition assigns what the condition reads, and the alternative is passed over all
the same. A second alternative stands behind the first one, and ends the run. -/
theorem execute_pairs_assigned :
    let source := (withRoot "base").operateAll
      [(.bare, .addAttribute 0 "x" (some "1")), (.bare, .addSection 0 "_if" (some "$(/$x) == 1")),
        (.bare, .addSection 2 "_set" none), (.bare, .addAttribute 3 "path" (some "/$x")),
        (.bare, .addAttribute 3 "to" (some "2")), (.bare, .addSection 2 "yes" none),
        (.bare, .addSection 0 "_else" none), (.bare, .addSection 7 "no" none),
        (.bare, .addSection 0 "_ELSE" none)]
    let body := runBody .bare ⟨20, 5⟩ 5
    (execute .bare ⟨20, 5⟩ source empty).1 = .error (.fails (.orphanElse "/_ELSE[1]")) ∧
      ((execute .bare ⟨20, 5⟩ source empty).2.result.shape root).children.map Shape.name = ["yes"] ∧
      ∃ p, ComesTo .bare ⟨20, 5⟩ source empty ⟨0, .block root root, p⟩ ∧
        (runBody .bare ⟨20, 5⟩ 6 root root).outcome p =
          (do visitAll .bare ⟨20, 5⟩ body root none []
              choose .bare ⟨20, 5⟩ body root 2 7
              visitAll .bare ⟨20, 5⟩ body root none [9] : Run Unit).outcome p := by
  intro source body
  have reach : Reachable source :=
    (Reachable.withRoot "base").operateAll _ (by simp [Operation.others])
  let header : Header := ⟨"base", none, [("x", some "1")]⟩
  have head : headerOf .bare source root = .ok header := by decide +kernel
  obtain ⟨result, q, prepared, visited, within, path, added⟩ : ∃ result q,
      (prepare header).apply empty = (.ok (), result) ∧
        (visitAll .bare ⟨20, 5⟩ body root none [2, 7]).outcome ⟨source, result, 0⟩ = (.ok (), q) ∧
        q.steps < 20 ∧ q.source.rootPath 9 = "/_ELSE[1]" ∧
        (q.result.shape root).children.map Shape.name = ["yes"] := by
    let result := ((prepare header).apply empty).2
    let ended := (visitAll .bare ⟨20, 5⟩ body root none [2, 7]).outcome ⟨source, result, 0⟩
    refine ⟨result, ended.2, Prod.ext ?_ ?_, Prod.ext ?_ ?_, ?_⟩
    · decide +kernel
    · dsimp only [result]
    · decide +kernel
    · dsimp only [ended]
    · decide +kernel
  have comes : ComesTo .bare ⟨20, 5⟩ source empty ⟨0, .block root root, ⟨source, result, 0⟩⟩ :=
    ⟨header, result, head, prepared, .refl⟩
  have children : source.childrenOf root = [2, 7, 9] := by decide +kernel
  have condition : controlOf? source 2 = some .whenTrue := by decide +kernel
  have alternative : controlOf? source 7 = some .otherwise := by decide +kernel
  have second : controlOf? source 9 = some .otherwise := by decide +kernel
  have ended := (execute_pairs reach comes (Nat.zero_le 5) [2, 7]).1 9 [] children second
    (by simp [alternative]) q visited within
  rw [path] at ended
  rw [ended]
  exact ⟨rfl, added, _, comes,
    (execute_pairs reach comes (Nat.zero_le 5) []).2 2 7 [9] children condition alternative⟩

end ConfTree.Script
