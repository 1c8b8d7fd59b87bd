import ConfTree.Proofs.Tree.Change

/-!
# Tallies

The `Tally` of a run of an edit counts the primitive edits that succeed in it. An edit is `Composed`
if it is put together from primitive edits and from what only looks at the configuration, and then
each of its runs has a tally (`Edit.Composed.exists_tally`). However the run ends, the configuration
has gone through this number of changes (`Edit.Tally.changes`).
-/

namespace ConfTree

open Relation

namespace Configuration

/-- A number of changes one after the other. -/
inductive Changes : Nat → Configuration → Configuration → Prop where
  | refl {a : Configuration} : Changes 0 a a
  | tail {n : Nat} {a b c : Configuration} : Changes n a b → Change b c → Changes (n + 1) a c

variable {m n : Nat} {a b c : Configuration}

/-- One change is a number of changes. -/
lemma Changes.single (h : Change a b) : Changes 1 a b := .tail .refl h

/-- Numbers of changes add up. -/
lemma Changes.trans (h : Changes m a b) (k : Changes n b c) : Changes (m + n) a c := by
  induction k with
  | refl => exact h
  | tail _ change ih => exact .tail (ih h) change

/-- The changes without their number. -/
lemma Changes.steps (h : Changes n a b) : ReflTransGen Change a b := by
  induction h with
  | refl => exact .refl
  | tail _ change ih => exact ih.tail change

end Configuration

namespace Edit

open ConfTree.Configuration

/-- The primitive edits. Nodes of either kind are appended. -/
inductive Primitive : {α : Type} → Edit α → Prop where
  | append (kind : Kind) (parent : NodeId) (name : String) (value : Option String) :
    Primitive (append kind parent name value)
  | setValue (id : NodeId) (value : Option String) : Primitive (setValue id value)
  | rename (id : NodeId) (name : String) : Primitive (rename id name)
  | delete (id : NodeId) : Primitive (delete id)
  | clear (id : NodeId) : Primitive (clear id)

/-- The edit is put together from primitive edits and from looks at the configuration. -/
inductive Composed : {α : Type} → Edit α → Prop where
  | pure {α : Type} (a : α) : Composed (Pure.pure a : Edit α)
  | throw {α : Type} (e : ConfigError) : Composed (throw e : Edit α)
  | get : Composed (MonadState.get : Edit Configuration)
  | look {α : Type} (f : Configuration → Except ConfigError α) : Composed (look f)
  | primitive {α : Type} {edit : Edit α} : Primitive edit → Composed edit
  | bind {α β : Type} {x : Edit α} {f : α → Edit β} :
    Composed x → (∀ a, Composed (f a)) → Composed (x >>= f)

/-- The number of primitive edits that succeed when the edit is run on a configuration. -/
inductive Tally : {α : Type} → Edit α → Configuration → Nat → Prop where
  | pure {α : Type} {conf : Configuration} (a : α) : Tally (Pure.pure a : Edit α) conf 0
  | throw {α : Type} {conf : Configuration} (e : ConfigError) : Tally (throw e : Edit α) conf 0
  | get {conf : Configuration} : Tally (MonadState.get : Edit Configuration) conf 0
  | look {α : Type} {conf : Configuration} (f : Configuration → Except ConfigError α) :
    Tally (look f) conf 0
  | succeeds {α : Type} {edit : Edit α} {conf conf' : Configuration} {a : α} :
    Primitive edit →
    edit.apply conf = (.ok a, conf') →
    Tally edit conf 1
  | fails {α : Type} {edit : Edit α} {conf conf' : Configuration} {e : ConfigError} :
    Primitive edit →
    edit.apply conf = (.error e, conf') →
    Tally edit conf 0
  /-- What comes after a part that fails is not run. -/
  | stops {α β : Type} {x : Edit α} {f : α → Edit β} {conf conf' : Configuration}
    {e : ConfigError} {n : Nat} :
    Tally x conf n →
    x.apply conf = (.error e, conf') →
    Tally (x >>= f) conf n
  | bind {α β : Type} {x : Edit α} {f : α → Edit β} {conf conf' : Configuration} {a : α}
    {m n : Nat} :
    Tally x conf m →
    x.apply conf = (.ok a, conf') →
    Tally (f a) conf' n →
    Tally (x >>= f) conf (m + n)

variable {α β : Type} {edit : Edit α} {conf : Configuration} {n : Nat}

/-- A primitive edit makes one change or none. -/
lemma Primitive.atomic (h : Primitive edit) : Atomic edit := by
  cases h with
  | append => exact .append _ _ _ _
  | setValue => exact .setValue _ _
  | rename => exact .rename _ _
  | delete => exact .delete _
  | clear => exact .clear _

/-- Each primitive edit that succeeds is one change, and nothing else changes anything. -/
lemma Tally.changes (h : Tally edit conf n) : Changes n conf (edit.apply conf).2 := by
  induction h with
  | pure | throw | get => exact .refl
  | look f =>
    rw [apply_look]
    exact .refl
  | succeeds primitive run =>
    rw [run]
    exact .single (primitive.atomic.change run)
  | fails primitive run =>
    rw [run, primitive.atomic.same run]
    exact .refl
  | stops _ run ih =>
    rw [run] at ih
    rw [apply_bind, run]
    exact ih
  | bind _ run _ first second =>
    rw [run] at first
    rw [apply_bind, run]
    exact first.trans second

/-- In every run of a composed edit the primitive edits that succeed can be counted. -/
lemma Composed.exists_tally (h : Composed edit) (conf : Configuration) :
    ∃ n, Tally edit conf n := by
  induction h generalizing conf with
  | pure a => exact ⟨0, .pure a⟩
  | throw e => exact ⟨0, .throw e⟩
  | get => exact ⟨0, .get⟩
  | look f => exact ⟨0, .look f⟩
  | @primitive _ edit primitive =>
    rcases run : edit.apply conf with ⟨e | a, conf'⟩
    · exact ⟨0, .fails primitive run⟩
    · exact ⟨1, .succeeds primitive run⟩
  | @bind _ _ x f _ _ first second =>
    obtain ⟨m, tally⟩ := first conf
    rcases run : x.apply conf with ⟨e | a, conf'⟩
    · exact ⟨m, .stops tally run⟩
    · obtain ⟨n, rest⟩ := second a conf'
      exact ⟨m + n, .bind tally run rest⟩

/-- A composed edit makes no more than changes. -/
lemma Composed.makes (h : Composed edit) : Makes Change edit := by
  intro conf
  obtain ⟨n, tally⟩ := h.exists_tally conf
  exact tally.changes.steps

/-- Either of two composed edits is composed. -/
lemma Composed.ite {c : Prop} [Decidable c] {x y : Edit α} (hx : Composed x) (hy : Composed y) :
    Composed (if c then x else y) := by
  split
  · exact hx
  · exact hy

/-- Appending is composed. -/
lemma Composed.append (kind : Kind) (parent : NodeId) (name : String) (value : Option String) :
    Composed (Edit.append kind parent name value) := .primitive (.append kind parent name value)

/-- Setting a value is composed. -/
lemma Composed.setValue (id : NodeId) (value : Option String) :
    Composed (Edit.setValue id value) := .primitive (.setValue id value)

/-- Renaming is composed. -/
lemma Composed.rename (id : NodeId) (name : String) : Composed (Edit.rename id name) :=
  .primitive (.rename id name)

/-- Deleting is composed. -/
lemma Composed.delete (id : NodeId) : Composed (Edit.delete id) := .primitive (.delete id)

/-- Clearing is composed. -/
lemma Composed.clear (id : NodeId) : Composed (Edit.clear id) := .primitive (.clear id)

end Edit

end ConfTree
