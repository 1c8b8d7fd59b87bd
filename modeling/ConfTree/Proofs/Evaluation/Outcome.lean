import ConfTree.Proofs.Evaluation.Expansion
import Mathlib.Data.List.TakeWhile

/-!
# How evaluations end

An evaluation with plain templates ends in one of three ways: with the expansion, and as many
substitutions more as the expansion weighs; with a limit, if the expansion is too high for the room
or too heavy for the substitutions left; or with a cycle, which the nodes on the stack close
(`nodeValueWithin_ends`).
-/

namespace ConfTree

open ConfTree.Configuration Relation

/-! ## Running evaluations -/

namespace Eval

variable {α β : Type} {state state' : EvalState}

/-- Runs a step of an evaluation: its outcome and the state that it ends in. -/
def apply (step : Eval α) (state : EvalState) : Except ConfigError α × EvalState :=
  step.run.run state

/-- A result leaves the state as it is. -/
@[simp]
lemma apply_pure (a : α) : (pure a : Eval α).apply state = (.ok a, state) := rfl

/-- The state is read as it is. -/
@[simp]
lemma apply_get : (get : Eval EvalState).apply state = (.ok state, state) := rfl

/-- One step after the other. The second runs if the first succeeds. -/
lemma apply_bind (x : Eval α) (f : α → Eval β) :
    (x >>= f).apply state =
      match x.apply state with
      | (.ok a, state) => (f a).apply state
      | (.error e, state) => (.error e, state) := by
  change (ExceptT.bindCont f (x state).1).run (x state).2 = match x state with
    | (.ok a, state) => (f a).apply state
    | (.error e, state) => (.error e, state)
  rcases x state with ⟨_ | _, _⟩ <;> rfl

/-- A result is handed on with the state that it left. -/
lemma apply_bind_ok {x : Eval α} {f : α → Eval β} {a : α} (h : x.apply state = (.ok a, state')) :
    (x >>= f).apply state = (f a).apply state' := by
  rw [apply_bind, h]

/-- An error ends what follows. -/
lemma apply_bind_error {x : Eval α} {f : α → Eval β} {e : ConfigError}
    (h : x.apply state = (.error e, state')) : (x >>= f).apply state = (.error e, state') := by
  rw [apply_bind, h]

/-- An outcome that was computed without the state. -/
lemma apply_liftExcept (out : Except ConfigError α) :
    (liftExcept out : Eval α).apply state = (out, state) := by
  cases out <;> rfl

/-- A step with a node on the stack. -/
lemma apply_within (id : NodeId) (step : Eval α) :
    (Nests.within id step : Eval α).apply state =
      ((step.apply { state with stack := id :: state.stack }).1,
        { (step.apply { state with stack := id :: state.stack }).2 with
          stack := (step.apply { state with stack := id :: state.stack }).2.stack.tail }) := rfl

/-- A substitution is counted, and it may be one too many. -/
lemma apply_countSubstitution (text : String) :
    (countSubstitution text : Eval Unit).apply state =
      (if maxSubstitutions < state.substitutions + 1 then .error (.evaluationLimit text)
        else .ok (),
        { state with substitutions := state.substitutions + 1 }) := by
  have counted : (modify fun s => { s with substitutions := s.substitutions + 1 } :
      Eval Unit).apply state = (.ok (), { state with substitutions := state.substitutions + 1 }) :=
    rfl
  rw [countSubstitution, apply_bind_ok counted, apply_bind_ok apply_get]
  split <;> rfl

/-- Below the limit a substitution is counted. -/
lemma apply_countSubstitution_ok (text : String) (few : state.substitutions < maxSubstitutions) :
    (countSubstitution text : Eval Unit).apply state =
      (.ok (), { state with substitutions := state.substitutions + 1 }) := by
  rw [apply_countSubstitution, if_neg (Nat.not_lt.2 few)]

end Eval

open Eval

/-! ## The three ways -/

/-- What an evaluation comes to without limits: `P h w a` says that it ends in `a`, after references
that nest `h` deep and count `w`. -/
abbrev Cost (α : Type) := Nat → Nat → α → Prop

namespace Cost

variable {α β : Type}

/-- Nothing is looked up. -/
def free (a : α) : Cost α := fun h w b => h = 0 ∧ w = 0 ∧ b = a

/-- One part comes after the other. -/
def andThen (P : Cost α) (Q : α → Cost β) : Cost β := fun h w b =>
  ∃ h₁ w₁ a h₂ w₂, P h₁ w₁ a ∧ Q a h₂ w₂ b ∧ h = max h₁ h₂ ∧ w = w₁ + w₂

/-- There is only one end. -/
def Unique (P : Cost α) : Prop :=
  ∀ h w a h' w' a', P h w a → P h' w' a' → h = h' ∧ w = w' ∧ a = a'

/-- A substitution is counted. -/
def one : Cost Unit := fun h w _ => h = 0 ∧ w = 1

/-- What costs nothing changes only the result. -/
lemma andThen_free {P : Cost α} {f : α → β} {h w : Nat} {b : β} :
    P.andThen (fun a => .free (f a)) h w b ↔ ∃ a, P h w a ∧ b = f a := by
  constructor
  · rintro ⟨h₁, w₁, a, _, _, comes, ⟨rfl, rfl, rfl⟩, rfl, rfl⟩
    exact ⟨a, by simpa using comes, rfl⟩
  · rintro ⟨a, comes, rfl⟩
    exact ⟨h, w, a, 0, 0, comes, ⟨rfl, rfl, rfl⟩, by simp, rfl⟩

/-- A result that is computed from a unique one is unique. -/
lemma Unique.map {P : Cost α} {f : α → β} (unique : P.Unique) :
    (P.andThen fun a => free (f a)).Unique := by
  intro h w b h' w' b' comes comes'
  obtain ⟨a, ha, rfl⟩ := andThen_free.1 comes
  obtain ⟨a', ha', rfl⟩ := andThen_free.1 comes'
  obtain ⟨rfl, rfl, rfl⟩ := unique h w a h' w' a' ha ha'
  exact ⟨rfl, rfl, rfl⟩

/-- One step counts once. -/
lemma one_andThen {Q : Cost β} {h w : Nat} {b : β} :
    one.andThen (fun _ => Q) h w b ↔ ∃ w', Q h w' b ∧ w = 1 + w' := by
  constructor
  · rintro ⟨_, _, _, h', w', ⟨rfl, rfl⟩, comes, rfl, rfl⟩
    exact ⟨w', by simpa using comes, rfl⟩
  · rintro ⟨w', comes, rfl⟩
    exact ⟨0, 1, (), h, w', ⟨rfl, rfl⟩, comes, by simp, rfl⟩

end Cost

/-- The nodes are passed one after the other by references, from a node that can be reached from
`top` back to this node. -/
def ClosesFrom (process : Host) (conf : Configuration) (top : NodeId) (walk : List NodeId) :
    Prop :=
  ∃ id inner, walk = id :: (inner ++ [id]) ∧ walk.IsChain (conf.Refers process) ∧
    conf.Reaches process top id

section

variable {process : Host} {conf : Configuration} {top : NodeId} {room : Nat}
  {state : EvalState} {α β : Type}

/-- How an evaluation ends that comes to `P` without limits. -/
inductive Ends (process : Host) (conf : Configuration) (top : NodeId) (room : Nat)
    (P : Cost α) (state : EvalState) : Except ConfigError α × EvalState → Prop where
  | value {h w a} :
    P h w a →
    h ≤ room →
    state.substitutions + w ≤ maxSubstitutions →
    Ends process conf top room P state
      (.ok a, { state with substitutions := state.substitutions + w })
  | limit {place state'} :
    (∀ h w a, P h w a → h ≤ room → maxSubstitutions < state.substitutions + w) →
    Ends process conf top room P state (.error (.evaluationLimit place), state')
  | cycle {walk state'} :
    ClosesFrom process conf top walk →
    Ends process conf top room P state
      (.error (.recursiveVariable (walk.map conf.rootPath)), state')

/-- Costs that agree end alike. -/
lemma Ends.congr {P Q : Cost α} {result : Except ConfigError α × EvalState}
    (same : ∀ h w a, P h w a ↔ Q h w a) (ends : Ends process conf top room P state result) :
    Ends process conf top room Q state result := by
  cases ends with
  | value comes low light => exact .value ((same _ _ _).1 comes) low light
  | limit large => exact .limit fun h w a comes => large h w a ((same h w a).2 comes)
  | cycle walk => exact .cycle walk

/-- A result that costs nothing is an end. -/
lemma Ends.pure (a : α) (light : state.substitutions ≤ maxSubstitutions) :
    Ends process conf top room (.free a) state ((Pure.pure a : Eval α).apply state) := by
  have free : Cost.free a 0 0 a := ⟨rfl, rfl, rfl⟩
  exact .value free (Nat.zero_le _) light

/-- Costs add up when one evaluation comes after another. -/
lemma Ends.bind {P : Cost α} {Q : α → Cost β} {x : Eval α} {f : α → Eval β} (unique : P.Unique)
    (first : Ends process conf top room P state (x.apply state))
    (rest : ∀ h w a, P h w a → state.substitutions + w ≤ maxSubstitutions →
      Ends process conf top room (Q a) { state with substitutions := state.substitutions + w }
        ((f a).apply { state with substitutions := state.substitutions + w })) :
    Ends process conf top room (P.andThen Q) state ((x >>= f).apply state) := by
  generalize ended : x.apply state = result at first
  cases first with
  | limit large =>
    rw [apply_bind_error ended]
    refine .limit ?_
    rintro _ _ b ⟨h₁, w₁, a, h₂, w₂, comes, -, rfl, rfl⟩ low
    have := large h₁ w₁ a comes (Nat.le_trans (Nat.le_max_left _ _) low)
    omega
  | cycle walk =>
    rw [apply_bind_error ended]
    exact .cycle walk
  | @value h w a comes low light =>
    rw [apply_bind_ok ended]
    have later := rest h w a comes light
    generalize (f a).apply { state with substitutions := state.substitutions + w } = result at later
    cases later with
    | value comes' low' light' =>
      rw [Nat.add_assoc] at light' ⊢
      exact .value ⟨h, w, a, _, _, comes, comes', rfl, rfl⟩ (Nat.max_le.2 ⟨low, low'⟩) light'
    | cycle walk => exact .cycle walk
    | limit large =>
      -- The first part comes to one end only, so the second part is the one that was run.
      refine .limit ?_
      rintro _ _ b ⟨h₁, w₁, a₁, h₂, w₂, comes₁, comes₂, rfl, rfl⟩ low
      obtain ⟨rfl, rfl, rfl⟩ := unique h w a h₁ w₁ a₁ comes comes₁
      have := large h₂ w₂ b comes₂ (Nat.le_trans (Nat.le_max_right _ _) low)
      rwa [Nat.add_assoc] at this

/-- A node that is on the stack meanwhile is not there any more in the end. -/
lemma Ends.within {P : Cost α} (id : NodeId) {step : Eval α}
    (ends : Ends process conf top room P { state with stack := id :: state.stack }
      (step.apply { state with stack := id :: state.stack })) :
    Ends process conf top room P state ((Nests.within id step : Eval α).apply state) := by
  rw [apply_within]
  generalize step.apply { state with stack := id :: state.stack } = result at ends
  cases ends with
  | value comes low light => exact .value comes low light
  | limit large => exact .limit large
  | cycle walk => exact .cycle walk

/-- A node needs one more place than its targets. -/
lemma Ends.higher {P Q : Cost α} {result : Except ConfigError α × EvalState}
    (same : ∀ h w a, Q h w a ↔ ∃ h', P h' w a ∧ h = h' + 1)
    (ends : Ends process conf top room P state result) :
    Ends process conf top (room + 1) Q state result := by
  cases ends with
  | value comes low light =>
    exact .value ((same _ _ _).2 ⟨_, comes, rfl⟩) (Nat.succ_le_succ low) light
  | limit large =>
    refine .limit fun h w a comes low => ?_
    obtain ⟨h', comes', rfl⟩ := (same h w a).1 comes
    exact large h' w a comes' (Nat.le_of_succ_le_succ low)
  | cycle walk => exact .cycle walk

end

/-! ## Values of nodes -/

section

variable {process : Host} {conf : Configuration} {top : NodeId} {room : Nat}
  {state : EvalState}

/-- A substitution is counted, up to the limit. -/
lemma countSubstitution_ends (text : String) :
    Ends process conf top room .one state ((countSubstitution text : Eval Unit).apply state) := by
  have one : Cost.one 0 1 () := ⟨rfl, rfl⟩
  rw [apply_countSubstitution]
  split
  · rename_i heavy
    refine .limit ?_
    rintro _ _ _ ⟨rfl, rfl⟩ -
    exact heavy
  · rename_i light
    exact .value one (Nat.zero_le _) (Nat.not_lt.1 light)

/-- What a reference comes to. -/
inductive Resolves (process : Host) (conf : Configuration) (context : Option NodeId)
    (body : List Char) : Cost String where
  | absent :
    conf.targetOf process context body = none →
    Resolves process conf context body 0 0 ""
  | found {id h w value} :
    conf.targetOf process context body = some id →
    Expands process conf id h w value →
    Resolves process conf context body h w (value.getD "")

variable {context : Option NodeId} {body : List Char} {ps : List Piece}

/-- A reference is resolved at one cost and to one text. -/
lemma Resolves.unique : (Resolves process conf context body).Unique := by
  rintro _ _ _ _ _ _ (none | ⟨target, expands⟩) (none' | ⟨target', expands'⟩)
  · exact ⟨rfl, rfl, rfl⟩
  · rw [none] at target'
    cases target'
  · rw [none'] at target
    cases target
  · rw [target] at target'
    cases target'
    obtain ⟨rfl, rfl, rfl⟩ := expands.unique expands'
    exact ⟨rfl, rfl, rfl⟩

/-- A reference and the pieces behind it expand one after the other. -/
lemma joins_reference {h w : Nat} {cs : List Char} :
    Cost.one.andThen (fun _ => (Resolves process conf context body).andThen fun text =>
        Cost.andThen (Joins process conf context ps) fun rest => .free (text.toList ++ rest))
      h w cs ↔ Joins process conf context (.reference body :: ps) h w cs := by
  rw [Cost.one_andThen]
  constructor
  · rintro ⟨_, ⟨h₁, w₁, text, h₂, w₂, resolves, rest, rfl, rfl⟩, rfl⟩
    obtain ⟨rest, joins, rfl⟩ := Cost.andThen_free.1 rest
    cases resolves with
    | absent target => simpa using joins.absent target
    | found target expands =>
      rw [← Nat.add_assoc]
      exact joins.found target expands
  · intro joins
    cases joins with
    | absent target rest =>
      exact ⟨_, ⟨0, 0, "", _, _, .absent target, Cost.andThen_free.2 ⟨_, rest, rfl⟩,
        (Nat.zero_max _).symm, (Nat.zero_add _).symm⟩, rfl⟩
    | found target expands rest =>
      exact ⟨_, ⟨_, _, _, _, _, .found target expands, Cost.andThen_free.2 ⟨_, rest, rfl⟩, rfl,
        rfl⟩, Nat.add_assoc _ _ _⟩

/-- A plain reference ends as its target does. -/
lemma resolve_ends {valueOf : Path.ValueOf Eval} (plain : (Reference.read body).isPlain = true)
    (light : state.substitutions ≤ maxSubstitutions)
    (value : ∀ b, conf.targetOf process context body = some b →
      Ends process conf top room (Expands process conf b) state ((valueOf b).apply state)) :
    Ends process conf top room (Resolves process conf context body) state
      (((Reference.read body).resolve process conf valueOf context).apply state) := by
  rw [Reference.resolve_plain plain]
  cases target : conf.targetOf process context body with
  | none =>
    refine (Ends.pure "" light).congr fun h w text => ?_
    constructor
    · rintro ⟨rfl, rfl, rfl⟩
      exact .absent target
    · rintro (_ | ⟨target', -⟩)
      · exact ⟨rfl, rfl, rfl⟩
      · rw [target] at target'
        cases target'
  | some id =>
    refine ((value id target).bind (fun _ _ _ _ _ _ => Expands.unique) fun _ _ value _ light =>
      .pure (value.getD "") light).congr fun h w text => ?_
    rw [Cost.andThen_free]
    constructor
    · rintro ⟨value, expands, rfl⟩
      exact .found target expands
    · rintro (target' | ⟨target', expands⟩)
      · rw [target] at target'
        cases target'
      · rw [target] at target'
        cases target'
        exact ⟨_, expands, rfl⟩

/-- Pieces end as their targets do. -/
lemma joinPieces_ends {valueOf : Path.ValueOf Eval} (text : String)
    (plain : ∀ p ∈ ps, p.isPlain = true)
    (light : state.substitutions ≤ maxSubstitutions)
    (values : ∀ body b, .reference body ∈ ps → conf.targetOf process context body = some b →
      ∀ {state' : EvalState}, state'.stack = state.stack →
        state'.substitutions ≤ maxSubstitutions →
        Ends process conf top room (Expands process conf b) state' ((valueOf b).apply state')) :
    Ends process conf top room (Joins process conf context ps) state
      ((joinPieces process conf valueOf context text ps).apply state) := by
  induction ps generalizing state with
  | nil =>
    have nil : Joins process conf context [] 0 0 [] := .nil
    exact .value nil (Nat.zero_le _) light
  | cons p ps ih =>
    have rest : ∀ {state' : EvalState}, state'.stack = state.stack →
        state'.substitutions ≤ maxSubstitutions →
        Ends process conf top room (Joins process conf context ps) state'
          ((joinPieces process conf valueOf context text ps).apply state') := by
      intro state' stack light
      refine ih (fun q hq => plain q (List.mem_cons_of_mem _ hq)) light ?_
      intro body b hb target state'' stack'
      exact values body b (List.mem_cons_of_mem _ hb) target (stack'.trans stack)
    have unique : Cost.Unique (Joins process conf context ps) := fun _ _ _ _ _ _ => Joins.unique
    cases p with
    | unclosed => cases plain _ List.mem_cons_self
    | char c =>
      refine ((rest rfl light).bind unique fun _ _ cs _ light => .pure (c :: cs) light).congr ?_
      intro h w cs
      rw [Cost.andThen_free]
      constructor
      · rintro ⟨rest, joins, rfl⟩
        exact joins.char
      · rintro ⟨⟩
        exact ⟨_, ‹_›, rfl⟩
    | escape =>
      refine ((rest rfl light).bind unique fun _ _ cs _ light =>
        .pure ('$' :: '(' :: cs) light).congr ?_
      intro h w cs
      rw [Cost.andThen_free]
      constructor
      · rintro ⟨rest, joins, rfl⟩
        exact joins.escape
      · rintro ⟨⟩
        exact ⟨_, ‹_›, rfl⟩
    | reference body =>
      refine Ends.congr (fun _ _ _ => joins_reference) ?_
      refine (countSubstitution_ends text).bind ?_ fun _ _ _ _ light => ?_
      · rintro _ _ _ _ _ _ ⟨rfl, rfl⟩ ⟨rfl, rfl⟩
        exact ⟨rfl, rfl, rfl⟩
      refine (resolve_ends (plain _ List.mem_cons_self) light fun b target => ?_).bind
        Resolves.unique fun _ _ resolved _ light => ?_
      · exact values body b List.mem_cons_self target rfl light
      · refine Ends.bind unique ?_ fun _ _ cs _ light => .pure (resolved.toList ++ cs) light
        exact rest rfl light

/-- A node on a stack that references have built up closes a cycle. -/
lemma closesFrom_stack {id : NodeId} {stack : List NodeId} (hm : id ∈ stack)
    (chain : (id :: stack).IsChain fun b a => conf.Refers process a b)
    (reached : conf.Reaches process top id) :
    ClosesFrom process conf top (id :: ((stack.takeWhile (· != id)).reverse ++ [id])) := by
  refine ⟨id, _, rfl, ?_, reached⟩
  -- The part of the stack down to the node is turned around.
  obtain ⟨rest, split⟩ : ∃ rest, stack = stack.takeWhile (· != id) ++ id :: rest := by
    have split := List.takeWhile_append_dropWhile (p := (· != id)) (l := stack)
    cases hd : stack.dropWhile (· != id) with
    | nil =>
      have := List.dropWhile_eq_nil_iff.1 hd id hm
      simp at this
    | cons x rest =>
      have hx := List.head?_dropWhile_not (· != id) stack
      rw [hd] at hx
      have : x = id := by simpa using hx
      rw [hd, this] at split
      exact ⟨rest, split.symm⟩
  rw [split, ← List.cons_append, ← List.singleton_append (l := rest), ← List.append_assoc] at chain
  have part := (List.isChain_append.1 chain).1
  rw [← List.isChain_reverse] at part
  simpa using part

section

variable {id : NodeId} {d : NodeData} {raw : String} (live : conf.live? id = some d)
  (value : d.value = some raw) (opens : hasReference raw.toList = true)

include live value opens

/-- A node on the stack is not evaluated again. -/
lemma apply_nodeValueWithin_stacked (hm : id ∈ state.stack) :
    (nodeValueWithin Eval process conf room id).apply state =
      (.error (.recursiveVariable (cyclePaths conf state.stack id)), state) := by
  rw [nodeValueWithin.eq_def]
  simp only [live, value, opens, if_true]
  rw [apply_bind_ok apply_get, if_pos (by simpa using hm)]
  rfl

/-- Without room for another node the evaluation stops at its limit. -/
lemma apply_nodeValueWithin_zero (hm : id ∉ state.stack) :
    (nodeValueWithin Eval process conf 0 id).apply state =
      (.error (.evaluationLimit (conf.rootPath id)), state) := by
  rw [nodeValueWithin]
  simp only [live, value, opens, if_true]
  rw [apply_bind_ok apply_get, if_neg (by simpa using hm)]
  rfl

/-- With room for another node its text is evaluated with the node on the stack. -/
lemma apply_nodeValueWithin_succ (hm : id ∉ state.stack) :
    (nodeValueWithin Eval process conf (room + 1) id).apply state =
      (do
        let text ← Nests.within id
          (evaluateText process conf (nodeValueWithin Eval process conf room) (contextOf id d) raw)
        return some text).apply state := by
  rw [nodeValueWithin]
  simp only [live, value, opens, if_true]
  rw [apply_bind_ok apply_get, if_neg (by simpa using hm)]

/-- The expansion of a template is that of its pieces. -/
lemma expands_template_iff {h w : Nat} {v : Option String} :
    Expands process conf id h w v ↔ ∃ h' cs, Joins process conf (contextOf id d)
      (pieces raw.toList) h' w cs ∧ h = h' + 1 ∧ v = some (String.ofList cs) := by
  constructor
  · intro expands
    cases expands with
    | literal plain =>
      rw [plain _ ((verbatim?_eq live).trans value)] at opens
      cases opens
    | template live' value' _ joins =>
      rw [live] at live'
      cases live'
      rw [value] at value'
      cases value'
      exact ⟨_, _, joins, rfl, rfl⟩
  · rintro ⟨h', cs, joins, rfl, rfl⟩
    exact .template live value opens joins

end

/-- Only a template that is not on the stack is evaluated. -/
lemma ends_of_template {id : NodeId}
    (chain : (id :: state.stack).IsChain fun b a => conf.Refers process a b)
    (reached : conf.Reaches process top id) (light : state.substitutions ≤ maxSubstitutions)
    (template : ∀ d raw, conf.live? id = some d → d.value = some raw →
      hasReference raw.toList = true → id ∉ state.stack →
      Ends process conf top room (Expands process conf id) state
        ((nodeValueWithin Eval process conf room id).apply state)) :
    Ends process conf top room (Expands process conf id) state
      ((nodeValueWithin Eval process conf room id).apply state) := by
  by_cases opens : ∃ raw ∈ conf.verbatim? id, hasReference raw.toList = true
  · obtain ⟨raw, hraw, opens⟩ := opens
    obtain ⟨d, live, value⟩ := Option.bind_eq_some_iff.1 hraw
    by_cases hm : id ∈ state.stack
    · rw [apply_nodeValueWithin_stacked live value opens hm]
      exact .cycle (closesFrom_stack hm chain reached)
    · exact template d raw live value opens hm
  · have plain : ∀ raw ∈ conf.verbatim? id, hasReference raw.toList = false := by
      intro raw hraw
      rw [Bool.eq_false_iff]
      exact fun h => opens ⟨raw, hraw, h⟩
    have literal : Expands process conf id 0 0 (conf.verbatim? id) := .literal plain
    rw [nodeValueWithin_literal plain process]
    exact .value literal (Nat.zero_le _) light

/-- The value of a node ends in one of the three ways, if the nodes on the stack lead to it. -/
lemma nodeValueWithin_ends (plain : conf.PlainTemplates) {id : NodeId}
    (chain : (id :: state.stack).IsChain fun b a => conf.Refers process a b)
    (reached : conf.Reaches process top id)
    (light : state.substitutions ≤ maxSubstitutions) :
    Ends process conf top room (Expands process conf id) state
      ((nodeValueWithin Eval process conf room id).apply state) := by
  induction room generalizing id state with
  | zero =>
    refine ends_of_template chain reached light fun d raw live value opens hm => ?_
    rw [apply_nodeValueWithin_zero live value opens hm]
    -- There is no room, and a template is not of height zero.
    refine .limit fun h w v expands low => ?_
    obtain ⟨h', cs, -, rfl, -⟩ := (expands_template_iff live value opens).1 expands
    omega
  | succ room ih =>
    refine ends_of_template chain reached light fun d raw live value opens hm => ?_
    rw [apply_nodeValueWithin_succ live value opens hm]
    have joins : Ends process conf top room
        (Joins process conf (contextOf id d) (pieces raw.toList))
        { state with stack := id :: state.stack }
        ((joinPieces process conf (nodeValueWithin Eval process conf room) (contextOf id d) raw
          (pieces raw.toList)).apply { state with stack := id :: state.stack }) := by
      refine joinPieces_ends raw (plain.pieces live value) light fun body b hb target state' stack
        light' => ?_
      have edge : conf.Refers process id b :=
        refers_iff.2 ⟨d, raw, body, live, value, hb, target⟩
      refine ih ?_ (reached.tail edge) light'
      rw [stack]
      exact .cons_cons edge chain
    have unique : Cost.Unique (Joins process conf (contextOf id d) (pieces raw.toList)) :=
      fun _ _ _ _ _ _ => Joins.unique
    have text := joins.bind unique fun _ _ cs _ light => .pure (String.ofList cs) light
    have whole := (Ends.within id text).bind unique.map fun _ _ text _ light =>
      .pure (some text) light
    refine whole.higher fun h w v => ?_
    rw [expands_template_iff live value opens]
    constructor
    · rintro ⟨h', cs, joins, rfl, rfl⟩
      exact ⟨h', Cost.andThen_free.2 ⟨_, Cost.andThen_free.2 ⟨cs, joins, rfl⟩, rfl⟩, rfl⟩
    · rintro ⟨h', comes, rfl⟩
      obtain ⟨_, inner, rfl⟩ := Cost.andThen_free.1 comes
      obtain ⟨cs, joins, rfl⟩ := Cost.andThen_free.1 inner
      exact ⟨h', cs, joins, rfl, rfl⟩

end

end ConfTree
