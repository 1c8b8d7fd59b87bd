import ConfTree.Evaluation.Value
import Mathlib.Tactic.Lemma

/-!
# What evaluations inherit from their steps

A property of steps is `Inherited` if it holds of the simple ones and passes on to those that are
built from others. Then it holds of every navigation, of every reference that is resolved and of
every value that is evaluated (`Inherited.nodeValue`). So such a property needs to be checked for
the simple steps only. The macros take part by their answers, and an evaluation fails in many ways
on its own, but with no timeout, and it calls no path malformed that can be read
(`ConfigError.Raised`).
-/

namespace ConfTree

/-- An evaluation can fail with the error on its own. -/
def ConfigError.Raised : ConfigError → Prop
  | .scriptTimeout _ => False
  | .malformedPath path fault => Path.Alternative.read path.toList = .error fault
  | _ => True

/-- Evaluation itself never raises a timeout. -/
lemma ConfigError.Raised.ne_scriptTimeout {e : ConfigError} (h : e.Raised) (n : Nat) :
    e ≠ .scriptTimeout n := by
  rintro rfl
  exact h

namespace Macro

variable {instant : Instant} {call : Call} {input : Option String} {e : ConfigError}

/-- The macro for the time fails as a macro only. -/
lemma now_error (h : now instant call = .error e) : ∃ name fault, e = .macroFailed name fault := by
  unfold now at h
  dsimp only at h
  split at h
  · cases h
  · split at h
    · cases h
    · exact ⟨_, _, (Except.error.inj h).symm⟩

/-- The macro for conversions fails as a macro only. -/
lemma convert_error (h : convert call input = .error e) :
    ∃ name fault, e = .macroFailed name fault := by
  unfold convert at h
  dsimp only at h
  split at h
  · exact ⟨_, _, (Except.error.inj h).symm⟩
  · split at h
    · cases h
    · cases h
    · exact ⟨_, _, (Except.error.inj h).symm⟩

/-- The built-in macros fail for reasons of their own, or the fallback fails. -/
lemma builtin_error {fallback : Option Provider}
    (h : builtin fallback instant call input = .error e) :
    (∃ name fault, e = .macroFailed name fault) ∨ (∃ name, e = .unknownMacro name) ∨
      ∃ provider ∈ fallback, provider instant call input = .error e := by
  unfold builtin at h
  dsimp only at h
  split at h
  · exact .inl (now_error h)
  · split at h
    · cases h
    · split at h
      · exact .inl (convert_error h)
      · split at h
        · exact .inr (.inr ⟨_, rfl, h⟩)
        · split at h
          · exact .inl ⟨_, _, (Except.error.inj h).symm⟩
          · exact .inr (.inl ⟨_, (Except.error.inj h).symm⟩)

end Macro

/-- The property holds of the simple steps of an evaluation whose macros are answered by the
provider, and of what is built from steps that it holds of. -/
structure Inherited (provider : Macro.Provider) (P : ∀ ⦃α : Type⦄, Eval α → Prop) : Prop where
  pure : ∀ {α : Type} (a : α), P (pure a : Eval α)
  throw : ∀ {α : Type} {e : ConfigError}, e.Raised → P (throw e : Eval α)
  answer : ∀ instant call input, P (liftExcept (provider instant call input) : Eval String)
  count : ∀ text, P (countSubstitution text : Eval Unit)
  /-- Steps look at the stack only. -/
  look : ∀ {α : Type} {f : List NodeId → Eval α}, (∀ stack, P (f stack)) →
    P (get >>= fun s => f s.stack)
  bind : ∀ {α β : Type} {x : Eval α} {f : α → Eval β}, P x → (∀ a, P (f a)) → P (x >>= f)
  within : ∀ {α : Type} (id : NodeId) {step : Eval α}, P step → P (Nests.within id step)

namespace Inherited

variable {conf : Configuration} {P : ∀ ⦃α : Type⦄, Eval α → Prop}
  (h : Inherited conf.provider P) {valueOf : Path.ValueOf Eval}

include h

/-- A check stands in front of a step. -/
lemma guarded {α : Type} {c : Prop} [Decidable c] {e : ConfigError} {step : Eval α}
    (own : e.Raised) (rest : P step) :
    P (do
      if c then MonadExcept.throw e
      step) := by
  dsimp only
  split
  · exact h.bind (h.throw own) fun _ => rest
  · exact rest

section

variable (values : ∀ id, P (valueOf id))

include values

/-- A search for a matching section has the property. -/
lemma firstMatching (key wanted : String) (ids : List NodeId) :
    P (Path.firstMatching conf valueOf key wanted ids) := by
  induction ids with
  | nil => exact h.pure none
  | cons id ids ih =>
    rw [Path.firstMatching]
    cases Path.keyAttribute? conf id key with
    | none => exact ih
    | some found =>
      refine h.bind (values found) fun actual => ?_
      split
      · exact h.pure _
      · exact ih

/-- Following segments has the property. -/
lemma follow (start : Option NodeId) (segments : List Path.Segment) :
    P (Path.follow conf valueOf start segments) := by
  induction segments generalizing start with
  | nil => cases start <;> exact h.pure _
  | cons segment segments ih =>
    cases start with
    | none => exact h.pure none
    | some id =>
      refine h.bind ?_ ih
      cases segment with
      | child name selector =>
        cases selector with
        | none => exact h.pure _
        | some selector =>
          cases selector with
          | index n => exact h.pure _
          | matching key value => exact h.firstMatching values _ _ _
      | _ => exact h.pure _

/-- Trying alternatives has the property. -/
lemma firstExisting (start : Option NodeId) (alternatives : List (List Char)) :
    P (Path.firstExisting conf valueOf start alternatives) := by
  induction alternatives with
  | nil => exact h.pure none
  | cons cs rest ih =>
    refine h.bind ?_ fun found => ?_
    · unfold Path.followAlternative
      split
      · rename_i fault malformed
        refine h.throw ?_
        rwa [ConfigError.Raised, String.toList_ofList]
      · exact h.follow values _ _
    · cases found with
      | none => exact ih
      | some id => exact h.pure _

/-- Navigation inherits from the values that it asks for. -/
lemma navigate (start : Option NodeId) (path : String) :
    P (Path.navigate conf valueOf start path) := by
  refine h.bind (h.firstExisting values start _) fun found => ?_
  cases found with
  | some id => exact h.pure _
  | none =>
    dsimp only
    split
    · exact h.throw trivial
    · exact h.pure none

variable {process : Host}

/-- Taking the input of a macro has the property. -/
lemma input (context : Option NodeId) (target : Target) :
    P (target.input process conf valueOf context) := by
  cases target with
  | nothing => exact h.pure none
  | variableNamed name => exact h.pure _
  | node path =>
    refine h.bind (h.navigate values context path) fun found => ?_
    cases found with
    | none => exact h.pure none
    | some id => exact h.bind (values id) fun value => h.pure _

omit values in
/-- What a reference makes of its input. -/
lemma answered (context : Option NodeId) (r : Reference) (input : Option String) : P (do
    if r.required && input.isNone then
      MonadExcept.throw (.requiredValueMissing r.text (conf.pathOf context))
    match r.call with
    | none => return input.getD ""
    | some text =>
      let call ← liftExcept (Macro.Call.parse text)
      liftExcept (conf.provider process.instant call input)) := by
  cases r.call with
  | none => exact h.guarded trivial (h.pure _)
  | some text =>
    refine h.guarded trivial (h.bind ?_ fun call => h.answer _ call input)
    unfold Macro.Call.parse
    split
    · exact h.throw trivial
    · exact h.pure _

/-- Resolving a reference has the property. -/
lemma resolve (context : Option NodeId) (r : Reference) :
    P (r.resolve process conf valueOf context) :=
  h.bind (h.input values context r.target) (h.answered context r)

/-- Evaluating a text has the property. -/
lemma evaluateText (context : Option NodeId) (text : String) :
    P (evaluateText process conf valueOf context text) := by
  have joined : ∀ pieces, P (joinPieces process conf valueOf context text pieces) := by
    intro pieces
    induction pieces with
    | nil => exact h.pure []
    | cons piece rest ih =>
      cases piece with
      | char c => exact h.bind ih fun cs => h.pure _
      | escape => exact h.bind ih fun cs => h.pure _
      | unclosed => exact h.throw trivial
      | reference body =>
        exact h.bind (h.count text) fun _ =>
          h.bind (h.resolve values context _) fun resolved => h.bind ih fun cs => h.pure _
  exact h.bind (joined _) fun cs => h.pure _

end

variable {process : Host}

/-- Evaluating a node within any room has the property. -/
lemma nodeValueWithin (room : Nat) (id : NodeId) :
    P (nodeValueWithin Eval process conf room id) := by
  have checked : ∀ {id : NodeId} {rest : Eval (Option String)}, P rest → P (do
      let s ← get
      if s.stack.contains id then
        MonadExcept.throw (.recursiveVariable (cyclePaths conf s.stack id))
      rest) := fun {id rest} hrest =>
    h.look (f := fun stack => do
      if stack.contains id then MonadExcept.throw (.recursiveVariable (cyclePaths conf stack id))
      rest) fun _ => h.guarded (by trivial) hrest
  induction room using Nat.strongRecOn generalizing id with
  | ind room ih =>
    rw [ConfTree.nodeValueWithin.eq_def]
    split
    · exact h.pure none
    · split
      · exact h.pure none
      · split
        · refine checked ?_
          cases room with
          | zero => exact h.throw trivial
          | succ room =>
            refine h.bind (h.within id ?_) fun text => h.pure _
            exact h.evaluateText (ih room (Nat.lt_succ_self room)) _ _
        · exact h.pure _

/-- All that is evaluated has the property. -/
lemma nodeValue (id : NodeId) : P (nodeValue Eval process conf id) :=
  h.look (f := fun stack => ConfTree.nodeValueWithin Eval process conf (maxDepth - stack.length) id)
    fun _ => h.nodeValueWithin _ id

end Inherited

end ConfTree
