import ConfTree.Proofs.Evaluation.Outcome
import ConfTree.Proofs.Operation.Reachable

/-!
# The stack in the course of an evaluation

An evaluation ends in one state, which does not tell what the stack was in between. So it is run
once more in a monad that keeps a record: a `Recorded` evaluation has states and errors as the plain
one and adds every stack that it comes by. It ends as the plain one (`Records`), and the stacks on
record lead in single moves from the one at the start back to it: all of them have this one below
them, hold no node twice and are not too high (`evaluation_stack`).
-/

namespace ConfTree

open Eval

/-- A step of an evaluation that keeps a record of the stacks, the first one first. -/
abbrev Recorded (α : Type) := ExceptT ConfigError (StateM (EvalState × List (List NodeId))) α

namespace Recorded

variable {α β : Type}

/-- Runs a step: its outcome, the state that it ends in and the record. -/
def apply (step : Recorded α) (state : EvalState) (record : List (List NodeId)) :
    Except ConfigError α × EvalState × List (List NodeId) :=
  step.run.run (state, record)

/-- Whenever the state is looked at or changed, the stack that is left is recorded. -/
instance : MonadStateOf EvalState Recorded where
  get := ExceptT.mk fun (state, record) => (.ok state, state, record ++ [state.stack])
  set after := ExceptT.mk fun (_, record) => (.ok (), after, record ++ [after.stack])
  modifyGet f := ExceptT.mk fun (state, record) =>
    let (a, after) := f state
    (.ok a, after, record ++ [after.stack])

/-- The stack is recorded when a node is put there and when it is taken off again. -/
instance : Nests Recorded where
  within id step := ExceptT.mk fun (state, record) =>
    let stack := id :: state.stack
    let (result, after, record) := step.run.run ({ state with stack }, record ++ [stack])
    (result, { after with stack := after.stack.tail }, record ++ [after.stack.tail])

/-- One step after the other. The second runs if the first succeeds. -/
lemma apply_bind (t : Recorded α) (f : α → Recorded β) (state : EvalState)
    (record : List (List NodeId)) : (t >>= f).apply state record =
      match t.apply state record with
      | (.ok a, state, record) => (f a).apply state record
      | (.error e, ended) => (.error e, ended) := by
  change (ExceptT.bindCont f (t (state, record)).1).run (t (state, record)).2 =
    match t (state, record) with
    | (.ok a, state, record) => (f a).apply state record
    | (.error e, ended) => (.error e, ended)
  rcases t (state, record) with ⟨_ | _, _⟩ <;> rfl

/-- A step with a node on the stack, which is recorded with the node and without it. -/
lemma apply_within (id : NodeId) (t : Recorded α) (state : EvalState)
    (record : List (List NodeId)) : (Nests.within id t : Recorded α).apply state record =
      match t.apply { state with stack := id :: state.stack } (record ++ [id :: state.stack]) with
      | (out, after, record) =>
        (out, { after with stack := after.stack.tail }, record ++ [after.stack.tail]) := rfl

end Recorded

/-! ## What is recorded -/

/-- The stack stays as it is, or one node is put on it or taken off. -/
inductive Moves : List NodeId → List NodeId → Prop where
  | stay {stack} :
    Moves stack stack
  | push {id stack} :
    Moves stack (id :: stack)
  | pop {id stack} :
    Moves (id :: stack) stack

/-- The stack has the other one below it, holds no node twice and is not too high. -/
structure GrownFrom (base stack : List NodeId) : Prop where
  extends_base : base <:+ stack
  nodup : stack.Nodup
  low : stack.length ≤ maxDepth

/-- The stacks lead in single moves from one stack back to it, and have all grown from there. -/
structure RoundTrip (base : List NodeId) (record : List (List NodeId)) : Prop where
  moves : (base :: record).IsChain Moves
  returns : (base :: record).getLast? = some base
  grown : ∀ stack ∈ record, GrownFrom base stack

namespace RoundTrip

variable {base : List NodeId} {first second : List (List NodeId)}

/-- No stack is no change. -/
lemma nil : RoundTrip base [] := ⟨.singleton base, rfl, nofun⟩

/-- The stack at the start is one that grew from it. -/
lemma stay (grown : GrownFrom base base) : RoundTrip base [base] := by
  refine ⟨List.isChain_pair.2 .stay, rfl, fun stack hm => ?_⟩
  rw [List.mem_singleton.1 hm]
  exact grown

/-- Where the stack is back, moves can go on. -/
lemma moves_append (there : RoundTrip base first) (moves : (base :: second).IsChain Moves) :
    (base :: (first ++ second)).IsChain Moves := by
  obtain ⟨next, moves⟩ := List.isChain_cons.1 moves
  rw [← List.cons_append, List.isChain_append]
  refine ⟨there.moves, moves, fun x hx y hy => ?_⟩
  rw [there.returns] at hx
  cases hx
  exact next y hy

/-- From a stack there and back again, and then once more. -/
lemma append (there : RoundTrip base first) (again : RoundTrip base second) :
    RoundTrip base (first ++ second) := by
  refine ⟨there.moves_append again.moves, ?_, fun stack hm => ?_⟩
  · have returns := again.returns
    rw [List.getLast?_cons] at returns
    rw [← List.cons_append, List.getLast?_append, there.returns]
    cases last : second.getLast? with
    | none => rfl
    | some stack =>
      rw [last] at returns
      exact returns
  · exact (List.mem_append.1 hm).elim (there.grown stack) (again.grown stack)

/-- A round trip from a stack with one node more, with the ways there and back. -/
lemma around {id : NodeId} (grown : GrownFrom base base) (upper : GrownFrom base (id :: base))
    (inner : RoundTrip (id :: base) first) :
    RoundTrip base ((id :: base) :: (first ++ [base])) := by
  refine ⟨List.isChain_cons_cons.2 ⟨.push, inner.moves_append (List.isChain_pair.2 .pop)⟩, ?_,
    fun stack hm => ?_⟩
  · rw [← List.cons_append, ← List.cons_append, List.getLast?_concat]
  · obtain rfl | hm := List.mem_cons.1 hm
    · exact upper
    obtain hm | hm := List.mem_append.1 hm
    · obtain ⟨extends_base, nodup, low⟩ := inner.grown stack hm
      exact ⟨(List.suffix_cons id base).trans extends_base, nodup, low⟩
    · rw [List.mem_singleton.1 hm]
      exact grown

end RoundTrip

/-- From a stack of distinct nodes that leaves room for some more, the evaluation ends as the plain
one, with the stack that it had at the start, and the stacks that it records are a round trip. -/
def Records {α : Type} (room : Nat) (state : EvalState) (t : Recorded α) (x : Eval α) : Prop :=
  state.stack.Nodup → state.stack.length + room ≤ maxDepth → ∀ record, ∃ more,
    t.apply state record = ((x.apply state).1, (x.apply state).2, record ++ more) ∧
    (x.apply state).2.stack = state.stack ∧ RoundTrip state.stack more

namespace Records

variable {α β : Type} {room : Nat} {state : EvalState}

/-- A result records nothing. -/
lemma pure (a : α) : Records room state (Pure.pure a) (Pure.pure a) := by
  intro _ _ record
  refine ⟨[], ?_, rfl, .nil⟩
  rw [List.append_nil]
  rfl

/-- An error records nothing. -/
lemma throw (e : ConfigError) :
    Records room state (MonadExcept.throw e : Recorded α) (MonadExcept.throw e) := by
  intro _ _ record
  refine ⟨[], ?_, rfl, .nil⟩
  rw [List.append_nil]
  rfl

/-- What was computed without the state records nothing. -/
lemma answer (out : Except ConfigError α) :
    Records room state (liftExcept out : Recorded α) (liftExcept out) := by
  cases out with
  | ok a => exact .pure a
  | error e => exact .throw e

/-- Reading the state records nothing. -/
lemma get : Records room state (MonadState.get : Recorded EvalState) MonadState.get := by
  intro distinct low record
  exact ⟨[state.stack], rfl, rfl, .stay ⟨List.suffix_rfl, distinct, by omega⟩⟩

/-- A change that leaves the stack as it is. -/
lemma update {f : EvalState → EvalState} (keeps : (f state).stack = state.stack) :
    Records room state (modify f : Recorded PUnit) (modify f) := by
  intro distinct low record
  refine ⟨[state.stack], ?_, keeps, .stay ⟨List.suffix_rfl, distinct, by omega⟩⟩
  rw [← keeps]
  rfl

/-- Steps that are recorded are recorded one after the other. -/
lemma bind {t : Recorded α} {f : α → Recorded β} {x : Eval α} {g : α → Eval β}
    (first : Records room state t x)
    (rest : ∀ a state', x.apply state = (.ok a, state') → Records room state' (f a) (g a)) :
    Records room state (t >>= f) (x >>= g) := by
  intro distinct low record
  obtain ⟨more, run, restored, there⟩ := first distinct low record
  rw [Recorded.apply_bind, Eval.apply_bind, run]
  generalize x.apply state = ended at restored rest ⊢
  obtain ⟨out, state'⟩ := ended
  cases out with
  | error e => exact ⟨more, rfl, restored, there⟩
  | ok a =>
    dsimp only at restored ⊢
    obtain ⟨more', run, restored', again⟩ := rest a state' rfl (restored ▸ distinct)
      (restored ▸ low) (record ++ more)
    rw [restored] at again restored'
    refine ⟨more ++ more', ?_, restored', there.append again⟩
    rw [run, List.append_assoc]

/-- A step that looks at the state goes on with it. -/
lemma look {f : EvalState → Recorded α} {g : EvalState → Eval α}
    (rest : Records room state (f state) (g state)) :
    Records room state (MonadState.get >>= f) (MonadState.get >>= g) := by
  refine get.bind fun s state' run => ?_
  cases run
  exact rest

/-- A node that is not on the stack yet is put there and taken off again. -/
lemma within {id : NodeId} (new : id ∉ state.stack) {t : Recorded α} {x : Eval α}
    (inner : Records room { state with stack := id :: state.stack } t x) :
    Records (room + 1) state (Nests.within id t) (Nests.within id x) := by
  intro distinct low record
  have distinct' : (id :: state.stack).Nodup := List.nodup_cons.2 ⟨new, distinct⟩
  have low' : (id :: state.stack).length + room ≤ maxDepth := by
    rw [List.length_cons]
    omega
  obtain ⟨more, run, restored, there⟩ := inner distinct' low' (record ++ [id :: state.stack])
  have taken : (x.apply { state with stack := id :: state.stack }).2.stack.tail = state.stack :=
    congrArg List.tail restored
  have grown : GrownFrom state.stack state.stack := ⟨List.suffix_rfl, distinct, by omega⟩
  have upper : GrownFrom state.stack (id :: state.stack) :=
    ⟨List.suffix_cons _ _, distinct', by omega⟩
  refine ⟨(id :: state.stack) :: (more ++ [state.stack]), ?_, taken, .around grown upper there⟩
  simp [Recorded.apply_within, run, Eval.apply_within, taken]

end Records

/-- Counting a substitution leaves the stack as it is. -/
lemma count_records {room : Nat} (text : String) (state : EvalState) :
    Records room state (countSubstitution text) (countSubstitution text) := by
  refine .bind (.update rfl) fun _ state' _ => .look ?_
  split
  · exact .throw _
  · exact .pure _

section

variable {process : Host} {conf : Configuration} {room : Nat}
  {recorded : Path.ValueOf Recorded} {valueOf : Path.ValueOf Eval}
  (values : ∀ id state, Records room state (recorded id) (valueOf id))

include values

/-- A search for a matching section is recorded. -/
lemma firstMatching_records (key wanted : String) (ids : List NodeId) (state : EvalState) :
    Records room state (Path.firstMatching conf recorded key wanted ids)
      (Path.firstMatching conf valueOf key wanted ids) := by
  induction ids generalizing state with
  | nil => exact .pure none
  | cons id ids ih =>
    rw [Path.firstMatching, Path.firstMatching]
    cases Path.keyAttribute? conf id key with
    | none => exact ih state
    | some found =>
      refine (values found state).bind fun actual state' _ => ?_
      split
      · exact .pure _
      · exact ih state'

/-- A step of a path is recorded. -/
lemma step_records (id : NodeId) (segment : Path.Segment) (state : EvalState) :
    Records room state (Path.step conf recorded id segment)
      (Path.step conf valueOf id segment) := by
  cases segment with
  | child name selector =>
    cases selector with
    | none => exact .pure _
    | some selector =>
      cases selector with
      | index n => exact .pure _
      | matching key value => exact firstMatching_records values key value _ state
  | _ => exact .pure _

/-- Following segments is recorded. -/
lemma follow_records (start : Option NodeId) (segments : List Path.Segment) (state : EvalState) :
    Records room state (Path.follow conf recorded start segments)
      (Path.follow conf valueOf start segments) := by
  induction segments generalizing start state with
  | nil => cases start <;> exact .pure _
  | cons segment segments ih =>
    cases start with
    | none => exact .pure none
    | some id =>
      exact (step_records values id segment state).bind fun next state' _ => ih next state'

/-- Trying alternatives is recorded. -/
lemma firstExisting_records (start : Option NodeId) (alternatives : List (List Char))
    (state : EvalState) :
    Records room state (Path.firstExisting conf recorded start alternatives)
      (Path.firstExisting conf valueOf start alternatives) := by
  induction alternatives generalizing state with
  | nil => exact .pure none
  | cons cs rest ih =>
    refine .bind ?_ fun found state' _ => ?_
    · unfold Path.followAlternative
      cases Path.Alternative.read cs with
      | error fault => exact .throw _
      | ok alternative => exact follow_records values _ _ state
    · cases found with
      | some id => exact .pure _
      | none => exact ih state'

/-- Following a path is recorded. -/
lemma navigate_records (start : Option NodeId) (path : String) (state : EvalState) :
    Records room state (Path.navigate conf recorded start path)
      (Path.navigate conf valueOf start path) := by
  refine (firstExisting_records values start _ state).bind fun found state' _ => ?_
  cases found with
  | some id => exact .pure _
  | none =>
    dsimp only
    split
    · exact .throw _
    · exact .pure _

/-- Resolving a reference is recorded. -/
lemma resolve_records (context : Option NodeId) (r : Reference) (state : EvalState) :
    Records room state (r.resolve process conf recorded context)
      (r.resolve process conf valueOf context) := by
  refine .bind ?_ fun input state' _ => ?_
  · cases r.target with
    | nothing => exact .pure none
    | variableNamed name => exact .pure _
    | node path =>
      refine (navigate_records values context path state).bind fun found state' _ => ?_
      cases found with
      | none => exact .pure none
      | some id => exact (values id state').bind fun value _ _ => .pure _
  · dsimp only
    split
    · exact .throw _
    · cases r.call with
      | none => exact .pure _
      | some text => exact .bind (.answer _) fun call _ _ => .answer _

/-- Evaluating a text is recorded. -/
lemma evaluateText_records (context : Option NodeId) (text : String) (state : EvalState) :
    Records room state (evaluateText process conf recorded context text)
      (evaluateText process conf valueOf context text) := by
  have joined : ∀ ps state, Records room state
      (joinPieces process conf recorded context text ps)
      (joinPieces process conf valueOf context text ps) := by
    intro ps
    induction ps with
    | nil => exact fun _ => .pure []
    | cons p ps ih =>
      intro state
      cases p with
      | char c => exact (ih state).bind fun cs _ _ => .pure _
      | escape => exact (ih state).bind fun cs _ _ => .pure _
      | unclosed => exact .throw _
      | reference body =>
        refine (count_records text state).bind fun _ state' _ => ?_
        exact (resolve_records values context _ state').bind fun resolved state' _ =>
          (ih state').bind fun cs _ _ => .pure _
  exact (joined _ state).bind fun cs _ _ => .pure _

end

section

variable (process : Host) (conf : Configuration)

/-- A node that is on the stack is an error, and what comes behind the check may rely on it. -/
lemma checked_records {room : Nat} {id : NodeId} {state : EvalState} {t : Recorded (Option String)}
    {x : Eval (Option String)} (rest : id ∉ state.stack → Records room state t x) :
    Records room state
      (do
        let s ← get
        if s.stack.contains id then
          MonadExcept.throw (.recursiveVariable (cyclePaths conf s.stack id))
        t)
      (do
        let s ← get
        if s.stack.contains id then
          MonadExcept.throw (.recursiveVariable (cyclePaths conf s.stack id))
        x) := by
  refine .look ?_
  dsimp only
  by_cases hm : id ∈ state.stack
  · rw [if_pos (List.contains_iff_mem.2 hm), if_pos (List.contains_iff_mem.2 hm)]
    exact .throw _
  · rw [if_neg (mt List.contains_iff_mem.1 hm), if_neg (mt List.contains_iff_mem.1 hm)]
    exact rest hm

/-- Evaluating a node is recorded within the room that is left. -/
lemma nodeValueWithin_records (room : Nat) (id : NodeId) (state : EvalState) :
    Records room state (nodeValueWithin Recorded process conf room id)
      (nodeValueWithin Eval process conf room id) := by
  induction room using Nat.strong_induction_on generalizing id state with
  | h room ih =>
    rw [nodeValueWithin.eq_def Recorded, nodeValueWithin.eq_def Eval]
    cases conf.live? id with
    | none => exact .pure none
    | some d =>
      dsimp only
      cases d.value with
      | none => exact .pure none
      | some raw =>
        dsimp only
        split
        · refine checked_records conf fun new => ?_
          cases room with
          | zero => exact .throw _
          | succ room =>
            refine (Records.within new ?_).bind fun text _ _ => .pure _
            exact evaluateText_records (ih room (Nat.lt_succ_self room)) _ raw _
        · exact .pure _

/-- Evaluating a node is recorded. -/
lemma nodeValue_records (id : NodeId) (state : EvalState) :
    Records 0 state (nodeValue Recorded process conf id) (nodeValue Eval process conf id) := by
  intro distinct low
  have records : Records (maxDepth - state.stack.length) state (nodeValue Recorded process conf id)
      (nodeValue Eval process conf id) := .look (nodeValueWithin_records process conf _ id state)
  exact records distinct (by omega)

end

/-! ## The stack of an evaluation -/

/-- The evaluation leaves the stack as it was. With a record it ends in the same way, and the stacks
on record lead in single moves from the one at the start back to it: all of them have this one below
them, hold no node twice and no more nodes than there may be. -/
structure KeepsStack {α : Type} (state : EvalState) (t : Recorded α) (x : Eval α) : Prop where
  restored : (x.apply state).2.stack = state.stack
  outcome : (t.apply state []).1 = (x.apply state).1
  ended : (t.apply state []).2.1 = (x.apply state).2
  moves : (state.stack :: (t.apply state []).2.2).IsChain Moves
  returns : (state.stack :: (t.apply state []).2.2).getLast? = some state.stack
  between : ∀ stack ∈ (t.apply state []).2.2, state.stack <:+ stack ∧ stack.Nodup ∧
    stack.length ≤ 256

/-- What is recorded from a stack of different nodes keeps the stack. -/
lemma Records.keepsStack {α : Type} {state : EvalState} {t : Recorded α} {x : Eval α}
    (records : Records 0 state t x) (distinct : state.stack.Nodup)
    (low : state.stack.length ≤ maxDepth) : KeepsStack state t x := by
  obtain ⟨more, run, restored, there⟩ := records distinct low []
  rw [List.nil_append] at run
  have record : (t.apply state []).2.2 = more := by rw [run]
  refine ⟨restored, by rw [run], by rw [run], ?_, ?_, fun stack hm => ?_⟩
  · rw [record]
    exact there.moves
  · rw [record]
    exact there.returns
  · rw [record] at hm
    obtain ⟨extends_base, nodup, low⟩ := there.grown stack hm
    exact ⟨extends_base, nodup, low⟩

/-- From a stack of distinct nodes that is not too high, the evaluation of a node, of a text and of
a path, however it ends, leaves the stack as it was, and in between the stack grows from there, by
other nodes and within its limit. -/
theorem evaluation_stack (process : Host) (conf : Configuration) {state : EvalState}
    (distinct : state.stack.Nodup) (low : state.stack.length ≤ 256) :
    (∀ id, KeepsStack state (nodeValue Recorded process conf id) (nodeValue Eval process conf id)) ∧
    (∀ context text, KeepsStack state
      (evaluateText process conf (nodeValue Recorded process conf) context text)
      (evaluateText process conf (nodeValue Eval process conf) context text)) ∧
    ∀ start path, KeepsStack state
      (Path.navigate conf (nodeValue Recorded process conf) start path)
      (Path.navigate conf (nodeValue Eval process conf) start path) := by
  have values := nodeValue_records process conf
  refine ⟨fun id => ?_, fun context text => ?_, fun start path => ?_⟩
  · exact (values id state).keepsStack distinct low
  · exact (evaluateText_records values context text state).keepsStack distinct low
  · exact (navigate_records values start path state).keepsStack distinct low

/-- A reference selects a section by an attribute that refers back: the cycle is met with three
nodes on the stack, and one of them is left. -/
theorem evaluation_stack_sample :
    let conf := (Configuration.withRoot "base").operateAll
      [(.bare, .addAttribute 0 "x" (some "$([k=1])")), (.bare, .addSection 0 "s" none),
        (.bare, .addAttribute 2 "k" (some "<$(..::or)$(../$x)>"))]
    [7].Nodup ∧ [7].length ≤ 256 ∧
      (nodeValue Eval .bare conf 1).apply ⟨[7], 5⟩ =
        (.error (.recursiveVariable ["/$x", "/s/$k", "/$x"]), ⟨[7], 8⟩) ∧
      ((nodeValue Recorded .bare conf 1).apply ⟨[7], 5⟩ []).2.2.dedup =
        [[3, 1, 7], [1, 7], [7]] ∧
      KeepsStack ⟨[7], 5⟩ (nodeValue Recorded .bare conf 1) (nodeValue Eval .bare conf 1) := by
  intro conf
  have distinct : [7].Nodup := List.nodup_singleton 7
  have low : [7].length ≤ 256 := by decide
  have cycle : (nodeValue Eval .bare conf 1).apply ⟨[7], 5⟩ =
      (.error (.recursiveVariable ["/$x", "/s/$k", "/$x"]), ⟨[7], 8⟩) := by decide +kernel
  have between : ((nodeValue Recorded .bare conf 1).apply ⟨[7], 5⟩ []).2.2.dedup =
      [[3, 1, 7], [1, 7], [7]] := by decide +kernel
  have keeps :
      KeepsStack ⟨[7], 5⟩ (nodeValue Recorded .bare conf 1) (nodeValue Eval .bare conf 1) :=
    (@evaluation_stack .bare conf ⟨[7], 5⟩ distinct low).1 1
  exact ⟨distinct, low, cycle, between, keeps⟩

end ConfTree
