import ConfTree.Proofs.Evaluation.Inherited
import ConfTree.Proofs.Script.Accounts

/-!
# Where timeouts come from

The values of a script, its conditions and its edits fail in many ways, but not with a timeout that
no macro answers with. So every other timeout of a run is the one of its budget (`Runs.timeout`).
-/

namespace ConfTree

open ConfTree.Configuration

/-- The outcome is not the timeout of so many steps. -/
def Untimed (n : Nat) {α : Type} (out : Except ConfigError α) : Prop :=
  out ≠ .error (.scriptTimeout n)

/-- No call of a macro is answered with the timeout of so many steps. -/
def Macro.Provider.Untimed (provider : Macro.Provider) (n : Nat) : Prop :=
  ∀ instant call input, ConfTree.Untimed n (provider instant call input)

variable {n : Nat}

namespace Untimed

variable {α β : Type}

/-- A value is no timeout. -/
lemma ok (a : α) : Untimed n (.ok a : Except ConfigError α) := nofun

/-- One result after the other is no timeout if neither of them is. -/
lemma bind {x : Except ConfigError α} {f : α → Except ConfigError β} (hx : Untimed n x)
    (hf : ∀ a, Untimed n (f a)) : Untimed n (x >>= f) := by
  cases x with
  | error e =>
    intro h
    cases h
    exact hx rfl
  | ok a => exact hf a

end Untimed

/-- The outcome of a computation that may panic is not the timeout of so many steps. -/
def Unspent (n : Nat) {α : Type} (out : Except (Exit ConfigError) α) : Prop :=
  out ≠ .error (.fails (.scriptTimeout n))

namespace Unspent

variable {α β : Type}

/-- A value is no timeout. -/
lemma ok (a : α) : Unspent n (.ok a : Except (Exit ConfigError) α) := nofun

/-- A result that is lifted is no timeout if it is none itself. -/
lemma lift {out : Except ConfigError α} (h : Untimed n out) : Unspent n (Exit.lift out) := by
  cases out with
  | ok a => exact .ok a
  | error e =>
    intro eq
    cases eq
    exact h rfl

/-- One result after the other is no timeout if neither of them is. -/
lemma bind {x : Except (Exit ConfigError) α} {f : α → Except (Exit ConfigError) β}
    (hx : Unspent n x) (hf : ∀ a, Unspent n (f a)) : Unspent n (x >>= f) := by
  cases x with
  | error e =>
    intro h
    cases h
    exact hx rfl
  | ok a => exact hf a

end Unspent

/-- The computation does not end with the timeout of so many steps, whatever state it starts in. -/
def Prompt (n : Nat) {σ α : Type} (x : ExceptT ConfigError (StateM σ) α) : Prop :=
  ∀ s, Untimed n (x.run.run s).1

namespace Prompt

variable {σ α β : Type}

/-- A value is prompt. -/
lemma pure (a : α) : Prompt n (Pure.pure a : ExceptT ConfigError (StateM σ) α) := fun _ => nofun

/-- Another error is prompt. -/
lemma throw {e : ConfigError} (h : e ≠ .scriptTimeout n) :
    Prompt n (MonadExcept.throw e : ExceptT ConfigError (StateM σ) α) := by
  intro s eq
  cases eq
  exact h rfl

/-- An answer that is no timeout is prompt. -/
lemma answer {out : Except ConfigError α} (h : Untimed n out) :
    Prompt n (liftExcept out : ExceptT ConfigError (StateM σ) α) := by
  cases out with
  | ok a => exact .pure a
  | error e => exact .throw fun eq => h (congrArg Except.error eq)

/-- To look at the state is prompt. -/
lemma get : Prompt n (MonadState.get : ExceptT ConfigError (StateM σ) σ) := fun _ => nofun

/-- To change the state is prompt. -/
lemma update (f : σ → σ) : Prompt n (modify f : ExceptT ConfigError (StateM σ) PUnit) :=
  fun _ => nofun

/-- One computation after the other is prompt if both of them are. -/
lemma bind {x : ExceptT ConfigError (StateM σ) α} {f : α → ExceptT ConfigError (StateM σ) β}
    (hx : Prompt n x) (hf : ∀ a, Prompt n (f a)) : Prompt n (x >>= f) := by
  intro s
  have first := hx s
  show (ExceptT.bindCont f (x s).1 (x s).2).1 ≠ _
  replace first : (x s).1 ≠ .error (.scriptTimeout n) := first
  revert first
  rcases x s with ⟨e | a, s'⟩
  · intro first eq
    exact first (by cases eq; rfl)
  · exact fun _ => hf a s'

end Prompt

/-! ## Evaluation -/

section

variable {process : Host} {conf : Configuration}

/-- Evaluations are prompt if macros are. -/
lemma prompt_inherited {provider : Macro.Provider} (macros : provider.Untimed n) :
    Inherited provider fun _ step => Prompt n step where
  pure := .pure
  throw own := .throw (own.ne_scriptTimeout n)
  answer instant call input := .answer (macros instant call input)
  count _ := by
    refine .bind (.update _) fun _ => .bind .get fun s => ?_
    split
    · exact .throw nofun
    · exact .pure _
  look h := .bind .get fun s => h s.stack
  bind := .bind
  within id _ h s := h { s with stack := id :: s.stack }

/-- The value of a node is no timeout if no macro answers with it. -/
lemma untimed_value? (macros : conf.provider.Untimed n) (id : NodeId) :
    Untimed n (conf.value? process id) :=
  (prompt_inherited macros).nodeValue id _

/-- So it is for a node that may be missing. -/
lemma untimed_valueOf? (macros : conf.provider.Untimed n) (node : Option NodeId) :
    Untimed n (conf.valueOf? process node) := by
  cases node with
  | none => exact .ok none
  | some id => exact untimed_value? macros id

/-- A path leads to no timeout if no macro answers with it. -/
lemma untimed_navigate (macros : conf.provider.Untimed n) (start : Option NodeId) (path : String) :
    Untimed n (conf.navigate process start path) :=
  (prompt_inherited macros).navigate (prompt_inherited macros).nodeValue start path _

/-- A text is evaluated to no timeout if no macro answers with it. -/
lemma untimed_evaluate (macros : conf.provider.Untimed n) (node : Option NodeId) (text : String) :
    Untimed n (conf.evaluate process node text) :=
  (prompt_inherited macros).evaluateText (prompt_inherited macros).nodeValue _ text _

end

/-! ## What a script looks at -/

namespace Script

section

variable {process : Host} {conf : Configuration} (macros : conf.provider.Untimed n)

/-- An expression has no timeout. -/
lemma unspent_calculate (text : String) : Unspent n (calculate text) := by
  unfold calculate
  rcases Expression.evaluate text with (_ | _) | _ <;> exact nofun

include macros

/-- The value of an attribute is no timeout. -/
lemma untimed_attributeValue (id : NodeId) (name : String) :
    Untimed n (attributeValue process conf id name) := untimed_valueOf? macros _

/-- The mark of called sections is no timeout. -/
lemma untimed_isScriptOnly (id : NodeId) : Untimed n (isScriptOnly process conf id) :=
  .bind (untimed_attributeValue macros id _) fun _ => .ok _

/-- The attributes of a header have no timeout. -/
lemma untimed_headerAttributes (ids : List NodeId) :
    Untimed n (headerAttributes process conf ids) := by
  induction ids with
  | nil => exact .ok []
  | cons id ids ih =>
    rw [headerAttributes]
    split
    · exact ih
    · exact .bind (untimed_value? macros id) fun value => .bind ih fun rest => .ok _

/-- A header has no timeout. -/
lemma untimed_headerOf (id : NodeId) : Untimed n (headerOf process conf id) :=
  .bind (untimed_evaluate macros _ _) fun _ => .bind (untimed_value? macros id) fun _ =>
    .bind (untimed_headerAttributes macros _) fun _ => .ok _

/-- A condition has no timeout. -/
lemma unspent_holds (id : NodeId) : Unspent n (holds process conf id) :=
  .bind (.lift (untimed_value? macros id)) fun _ => .bind (unspent_calculate _) fun _ => .ok _

/-- An assignment has no timeout. -/
lemma unspent_assignmentOf (id : NodeId) : Unspent n (assignmentOf process conf id) := by
  refine .bind (.lift (untimed_attributeValue macros id _)) fun path => ?_
  cases path with
  | none => exact nofun
  | some path =>
    refine .bind (.lift (untimed_attributeValue macros id _)) fun text =>
      .bind (unspent_calculate _) fun value =>
      .bind (.lift (untimed_navigate macros _ _)) fun target => ?_
    cases target with
    | none => exact nofun
    | some target => exact .ok _

/-- A call has no timeout. -/
lemma untimed_calleeOf (id : NodeId) : Untimed n (calleeOf process conf id) := by
  refine .bind (untimed_value? macros id) fun path =>
    .bind (untimed_navigate macros _ _) fun callee => ?_
  cases callee with
  | none => exact nofun
  | some callee =>
    dsimp only
    split
    · exact .ok _
    · exact nofun

end

end Script

/-! ## What a script edits -/

namespace Edit

variable {α : Type} {conf conf' : Configuration}

/-- A checked edit is prompt if its check is no timeout. -/
lemma untimed_checked {β : Type} {check : Configuration → Except ConfigError α}
    {change : α → Configuration → β × Configuration} (h : ∀ conf, Untimed n (check conf)) :
    Prompt n (Edit.checked check change) := by
  intro conf
  show Untimed n ((Edit.checked check change).apply conf).1
  cases hc : check conf with
  | ok a =>
    rw [apply_checked_ok hc]
    exact .ok _
  | error e =>
    rw [apply_checked_error hc]
    intro eq
    cases eq
    exact h conf hc

/-- A frozen configuration is no timeout. -/
lemma untimed_checkWritable : Untimed n conf.checkWritable := by
  unfold Configuration.checkWritable
  split <;> exact nofun

/-- A name that is refused is no timeout. -/
lemma untimed_requireName (name : String) : Untimed n (Configuration.requireName name) := by
  unfold Configuration.requireName
  split <;> exact nofun

/-- A node that is missing is no timeout. -/
lemma untimed_requireLive (id : NodeId) : Untimed n (conf.requireLive id) := by
  unfold Configuration.requireLive
  split <;> exact nofun

/-- A node that is no section is no timeout. -/
lemma untimed_requireSection (id : NodeId) : Untimed n (conf.requireSection id) := by
  unfold Configuration.requireSection
  split
  · exact nofun
  · split <;> exact nofun

/-- Appending a node is prompt. -/
lemma prompt_append (kind : Kind) (parent : NodeId) (name : String) (value : Option String) :
    Prompt n (Edit.append kind parent name value) :=
  untimed_checked fun _ => .bind untimed_checkWritable fun _ =>
    .bind (untimed_requireName name) fun _ => .bind (untimed_requireSection parent) fun _ => .ok _

/-- Setting a value is prompt. -/
lemma prompt_setValue (id : NodeId) (value : Option String) : Prompt n (Edit.setValue id value) :=
  untimed_checked fun _ => .bind untimed_checkWritable fun _ =>
    .bind (untimed_requireLive id) fun _ => .ok _

/-- Renaming a node is prompt. -/
lemma prompt_rename (id : NodeId) (name : String) : Prompt n (Edit.rename id name) :=
  untimed_checked fun _ => .bind untimed_checkWritable fun _ =>
    .bind (untimed_requireName name) fun _ => .bind (untimed_requireLive id) fun _ => .ok _

/-- Emptying a section is prompt. -/
lemma prompt_clear (id : NodeId) : Prompt n (Edit.clear id) :=
  untimed_checked fun _ => .bind untimed_checkWritable fun _ =>
    .bind (untimed_requireSection id) fun _ => .ok _

end Edit

namespace Script

/-- Appending attributes is prompt. -/
lemma prompt_appendAttributes (target : NodeId) (attributes : List (String × Option String)) :
    Prompt n (appendAttributes target attributes) := by
  induction attributes with
  | nil => exact .pure ()
  | cons a attributes ih => exact .bind (Edit.prompt_append _ _ _ _) fun _ => ih

/-- Preparing the result is prompt. -/
lemma prompt_prepare (header : Header) : Prompt n (prepare header) :=
  .bind (Edit.prompt_clear _) fun _ => .bind (Edit.prompt_rename _ _) fun _ =>
    .bind (Edit.prompt_setValue _ _) fun _ => prompt_appendAttributes _ _

/-! ## Timeouts of a run -/

/-- The outcome of an edit is no timeout. -/
lemma ne_timeout {α : Type} {edit : Edit α} {conf conf' : Configuration} {n : Nat}
    {out : Except ConfigError α} (prompt : Prompt n edit) (h : edit.apply conf = (out, conf')) :
    out ≠ .error (.scriptTimeout n) := by
  have first := prompt conf
  rw [show edit.run.run conf = (out, conf') from h] at first
  exact first

/-- A timeout is that of the first step beyond the budget. -/
lemma Runs.timeout {process : Host} {limits : Limits} {depth : Nat} {task : Task}
    {p p' : Progress} {log : List Event} {out : Outcome} {n : Nat}
    (h : Runs process limits depth task p log out p') (start : p.steps ≤ limits.steps)
    (macros : p.source.provider.Untimed n) (timeout : out = .error (.fails (.scriptTimeout n))) :
    n = limits.steps + 1 ∧ p'.steps = limits.steps + 1 := by
  induction h with
  | tooDeep | visited | skipped | notTaken | orphan | done | roundsEnd => cases timeout
  | gone | unknown => cases timeout
  | noFlag fault =>
    cases timeout
    exact absurd fault (untimed_isScriptOnly macros _)
  | noHeader _ fault =>
    cases timeout
    exact absurd fault (untimed_headerOf macros _)
  | refused _ _ add =>
    cases timeout
    exact absurd rfl (ne_timeout (Edit.prompt_append _ _ _ _) add)
  | noAttributes _ _ _ attributes =>
    cases timeout
    exact absurd rfl (ne_timeout (prompt_appendAttributes _ _) attributes)
  | noCondition fault | noLoopCondition fault =>
    cases timeout
    exact absurd fault (unspent_holds macros _)
  | noAssignment fault =>
    cases timeout
    exact absurd fault (unspent_assignmentOf macros _)
  | noCallee fault =>
    cases timeout
    exact absurd fault (untimed_calleeOf macros _)
  | @assign _ _ _ _ _ _ _ out _ _ set =>
    cases out with
    | ok => cases timeout
    | error e =>
      cases timeout
      exact absurd rfl (ne_timeout (Edit.prompt_setValue _ _) set)
  | visitSpent out | roundSpent _ out =>
    cases timeout
    exact ⟨by omega, by show _ + 1 = _; omega⟩
  | block _ _ ih | halted _ ih | otherwise _ ih | loop _ ih | call _ _ ih =>
    exact ih start macros timeout
  | copied _ _ _ _ _ ih => exact ih start macros timeout
  | control within _ _ _ ih | ordinary within _ _ _ _ ih | broken _ within _ ih =>
    exact ih within macros timeout
  | @taken _ _ _ _ _ _ out _ _ _ ih =>
    cases out with
    | ok => cases timeout
    | error e =>
      cases timeout
      exact ih start macros rfl
  | next first _ _ ih' =>
    obtain within | ⟨-, failed⟩ := first.ends start
    · exact ih' within (first.kept.provider ▸ macros) timeout
    · cases failed
  | round _ within first _ _ ih' =>
    obtain within | ⟨-, failed⟩ := first.ends within
    · have macros' : Macro.Provider.Untimed _ n := first.kept.provider ▸ macros
      exact ih' within macros' timeout
    · cases failed

end Script

end ConfTree
