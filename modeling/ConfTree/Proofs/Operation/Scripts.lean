import ConfTree.Script.Run
import ConfTree.Proofs.Operation.Edits

/-!
# Scripts

A run edits two configurations: it sets values in the script, and it changes the result. A part of a
run is `Composed` if the edits in it are, and its `Tally` counts the primitive edits that succeed in
either of the two configurations. However the run ends, the configurations have gone through these
numbers of changes (`Run.Tally.changes`).
-/

namespace ConfTree.Script

open ConfTree.Configuration Relation

/-- Runs a part of a run: its outcome, and what the run has come to. -/
def Run.outcome {α : Type} (run : Run α) (p : Progress) :
    Except (Exit ConfigError) α × Progress :=
  run.run.run p

namespace Run

/-- The part of a run is put together from composed edits of either configuration. -/
inductive Composed : {α : Type} → Run α → Prop where
  | pure {α : Type} (a : α) : Composed (Pure.pure a : Run α)
  | compute {α : Type} (f : Configuration → Except (Exit ConfigError) α) : Composed (compute f)
  | tick (limit : Nat) : Composed (tick limit)
  | editSource {α : Type} {edit : Edit α} : edit.Composed → Composed (editSource edit)
  | editResult {α : Type} {edit : Edit α} : edit.Composed → Composed (editResult edit)
  | bind {α β : Type} {x : Run α} {f : α → Run β} :
    Composed x → (∀ a, Composed (f a)) → Composed (x >>= f)

/-- The numbers of primitive edits that succeed in a part of a run, of the script and of the
result. -/
inductive Tally : {α : Type} → Run α → Progress → Nat → Nat → Prop where
  | pure {α : Type} {p : Progress} (a : α) : Tally (Pure.pure a : Run α) p 0 0
  | compute {α : Type} {p : Progress} (f : Configuration → Except (Exit ConfigError) α) :
    Tally (compute f) p 0 0
  | tick {p : Progress} (limit : Nat) : Tally (tick limit) p 0 0
  | editSource {α : Type} {edit : Edit α} {p : Progress} {m : Nat} :
    edit.Tally p.source m →
    Tally (editSource edit) p m 0
  | editResult {α : Type} {edit : Edit α} {p : Progress} {n : Nat} :
    edit.Tally p.result n →
    Tally (editResult edit) p 0 n
  /-- What comes after a part that fails is not run. -/
  | stops {α β : Type} {x : Run α} {f : α → Run β} {p q : Progress} {e : Exit ConfigError}
    {m n : Nat} :
    Tally x p m n →
    x.outcome p = (.error e, q) →
    Tally (x >>= f) p m n
  | bind {α β : Type} {x : Run α} {f : α → Run β} {p q : Progress} {a : α} {m n k l : Nat} :
    Tally x p m n →
    x.outcome p = (.ok a, q) →
    Tally (f a) q k l →
    Tally (x >>= f) p (m + k) (n + l)

variable {α β : Type} {run : Run α}

/-- One part of a run after the other. -/
lemma outcome_bind (x : Run α) (f : α → Run β) (p : Progress) :
    (x >>= f).outcome p =
      match x.outcome p with
      | (.ok a, p) => (f a).outcome p
      | (.error e, p) => (.error e, p) := by
  change (ExceptT.bindCont f (x p).1).run (x p).2 = match x p with
    | (.ok a, p) => (f a).outcome p
    | (.error e, p) => (.error e, p)
  rcases x p with ⟨_ | _, _⟩ <;> rfl

/-- Each primitive edit that succeeds is one change of its configuration, and nothing else changes
anything. -/
lemma Tally.changes {p : Progress} {m n : Nat} (h : Tally run p m n) :
    Changes m p.source (run.outcome p).2.source ∧ Changes n p.result (run.outcome p).2.result := by
  induction h with
  | pure | compute | tick => exact ⟨.refl, .refl⟩
  | editSource tally => exact ⟨tally.changes, .refl⟩
  | editResult tally => exact ⟨.refl, tally.changes⟩
  | stops _ out ih =>
    rw [out] at ih
    rw [outcome_bind, out]
    exact ih
  | bind _ out _ first second =>
    rw [out] at first
    rw [outcome_bind, out]
    exact ⟨first.1.trans second.1, first.2.trans second.2⟩

/-- In every composed part of a run the primitive edits that succeed can be counted. -/
lemma Composed.exists_tally (h : Composed run) (p : Progress) : ∃ m n, Tally run p m n := by
  induction h generalizing p with
  | pure a => exact ⟨0, 0, .pure a⟩
  | compute f => exact ⟨0, 0, .compute f⟩
  | tick limit => exact ⟨0, 0, .tick limit⟩
  | editSource composed =>
    obtain ⟨m, tally⟩ := composed.exists_tally p.source
    exact ⟨m, 0, .editSource tally⟩
  | editResult composed =>
    obtain ⟨n, tally⟩ := composed.exists_tally p.result
    exact ⟨0, n, .editResult tally⟩
  | @bind _ _ x f _ _ first second =>
    obtain ⟨m, n, tally⟩ := first p
    rcases out : x.outcome p with ⟨e | a, q⟩
    · exact ⟨m, n, .stops tally out⟩
    · obtain ⟨k, l, rest⟩ := second a q
      exact ⟨m + k, n + l, .bind tally out rest⟩

/-- A composed part of a run makes no more than changes. -/
lemma Composed.makes (h : Composed run) (p : Progress) :
    ReflTransGen Change p.source (run.outcome p).2.source ∧
      ReflTransGen Change p.result (run.outcome p).2.result := by
  obtain ⟨m, n, tally⟩ := h.exists_tally p
  exact ⟨tally.changes.1.steps, tally.changes.2.steps⟩

/-- Either of two composed parts is composed. -/
lemma Composed.ite {c : Prop} [Decidable c] {x y : Run α} (hx : Composed x) (hy : Composed y) :
    Composed (if c then x else y) := by
  split
  · exact hx
  · exact hy

/-- A loop is composed if its condition and its body are. -/
lemma Composed.repeatWhile (limit : Nat) {condition : Run Bool} {body : Run Unit}
    (hc : Composed condition) (hb : Composed body) (rounds : Nat) :
    Composed (Run.repeatWhile limit condition body rounds) := by
  induction rounds with
  | zero => exact .tick limit
  | succ rounds ih =>
    exact .bind hc fun _ => .ite (.bind (.tick limit) fun _ => .bind hb fun _ => ih) (.pure ())

end Run

/-- Appending attributes to the result is composed. -/
lemma appendAttributes_composed (target : NodeId) (attributes : List (String × Option String)) :
    (appendAttributes target attributes).Composed := by
  induction attributes with
  | nil => exact .pure ()
  | cons a attributes ih => exact .bind (.append _ _ _ _) fun _ => ih

section

variable (process : Host) (limits : Limits) {body : Body}
  (hbody : ∀ id target, Run.Composed (body id target))

include hbody

/-- Copying a section is composed if the body is. -/
lemma copySection_composed (target id : NodeId) :
    Run.Composed (copySection process body target id) := by
  refine .bind (.compute _) fun _ => .ite (.pure ()) ?_
  refine .bind (.compute _) fun _ => .bind (.editResult (.append _ _ _ _)) fun copied => ?_
  exact .bind (.editResult (appendAttributes_composed _ _)) fun _ => hbody id copied

/-- An instruction sets a value or runs bodies. -/
lemma carryOut_composed (target id : NodeId) (before : Option Bool) (control : Control) :
    Run.Composed (carryOut process limits body target id before control) := by
  cases control with
  | assign =>
    exact .bind (.compute _) fun _ => .bind (.editSource (.setValue _ _)) fun _ => .pure none
  | repeatWhile =>
    exact .bind (.repeatWhile _ (.compute _) (hbody id target) _) fun _ => .pure none
  | whenTrue =>
    exact .bind (.compute _) fun _ => .ite (.bind (hbody id target) fun _ => .pure _) (.pure _)
  | otherwise =>
    cases before with
    | none => exact .bind (.compute _) fun _ => .pure none
    | some taken =>
      cases taken with
      | true => exact .bind (.pure ()) fun _ => .pure none
      | false => exact .bind (hbody id target) fun _ => .pure none
  | call => exact .bind (.compute _) fun callee => .bind (hbody callee target) fun _ => .pure none

/-- A visit of a section carries out an instruction or copies the section. -/
lemma visit_composed (target id : NodeId) (before : Option Bool) :
    Run.Composed (visit process limits body target id before) := by
  refine .bind (.tick _) fun _ => .bind (.compute _) fun found => ?_
  cases found with
  | none => exact .pure before
  | some name =>
    dsimp only
    split
    · exact carryOut_composed process limits hbody target id before _
    · refine .ite (.bind (.compute _) fun _ => ?_) ?_
      · exact .bind (copySection_composed process hbody target id) fun _ => .pure none
      · exact .bind (copySection_composed process hbody target id) fun _ => .pure none

/-- Visiting the children of a block is composed if running a block is. -/
lemma visitAll_composed (target : NodeId) (before : Option Bool) (ids : List NodeId) :
    Run.Composed (visitAll process limits body target before ids) := by
  induction ids generalizing before with
  | nil => exact .pure ()
  | cons id ids ih =>
    exact .bind (visit_composed process limits hbody target id before) fun after => ih after

omit hbody

/-- The body of a section sets values in the script and changes the result, in whatever room. -/
lemma runBody_composed (room : Nat) (id target : NodeId) :
    Run.Composed (runBody process limits room id target) := by
  induction room generalizing id target with
  | zero =>
    rw [runBody]
    exact .compute _
  | succ room ih =>
    exact .bind (.compute _) fun ids => visitAll_composed process limits ih target none ids

/-- A whole run sets values in the script and changes the result. -/
lemma runRoot_composed : Run.Composed (runRoot process limits) := by
  refine .bind (.compute _) fun header => .bind (.editResult ?_) fun _ =>
    runBody_composed process limits _ _ _
  exact .bind (.clear _) fun _ => .bind (.rename _ _) fun _ => .bind (.setValue _ _) fun _ =>
    appendAttributes_composed _ _

end

end ConfTree.Script
