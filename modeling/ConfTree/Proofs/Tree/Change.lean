import ConfTree.Proofs.Tree.WellFormed
import Mathlib.Logic.Relation

/-!
# Changes

Whatever an edit does to a configuration, it does by the six primitive edits. `Change` says once
what a primitive edit that succeeds can do (`Edit.Atomic`), and `Edit.Makes` says of any edit that
it leaves a configuration behind that a sequence of such changes leads to, also when the edit fails
in the middle. The lemmas on `Edit.Makes` follow the constructs that edits are built with.
-/

namespace ConfTree

open Relation

/-! ## Running edits -/

namespace Edit

variable {α β : Type} {conf : Configuration}

/-- A result leaves the configuration as it is. -/
@[simp]
lemma apply_pure (a : α) : (pure a : Edit α).apply conf = (.ok a, conf) := rfl

/-- The configuration is read as it is. -/
@[simp]
lemma apply_get : (get : Edit Configuration).apply conf = (.ok conf, conf) := rfl

/-- One edit after the other. The second runs if the first succeeds. -/
lemma apply_bind (x : Edit α) (f : α → Edit β) :
    (x >>= f).apply conf =
      match x.apply conf with
      | (.ok a, conf) => (f a).apply conf
      | (.error e, conf) => (.error e, conf) := by
  change (ExceptT.bindCont f (x conf).1).run (x conf).2 = match x conf with
    | (.ok a, conf) => (f a).apply conf
    | (.error e, conf) => (.error e, conf)
  rcases x conf with ⟨_ | _, _⟩ <;> rfl

/-- One edit after another that succeeds. -/
lemma apply_bind_ok {x : Edit α} {f : α → Edit β} {a : α} {conf' : Configuration}
    (h : x.apply conf = (.ok a, conf')) : (x >>= f).apply conf = (f a).apply conf' := by
  rw [apply_bind, h]

/-- If two edits succeed one after the other, then each of them does. -/
lemma of_apply_bind_ok {x : Edit α} {f : α → Edit β} {b : β} {conf' : Configuration}
    (h : (x >>= f).apply conf = (.ok b, conf')) :
    ∃ a conf₁, x.apply conf = (.ok a, conf₁) ∧ (f a).apply conf₁ = (.ok b, conf') := by
  rw [apply_bind] at h
  split at h
  · exact ⟨_, _, ‹_›, h⟩
  · cases h

/-- A checked edit whose check succeeds. -/
lemma apply_checked_ok {check : Configuration → Except ConfigError α}
    {change : α → Configuration → β × Configuration} {a : α} (h : check conf = .ok a) :
    (checked check change).apply conf = (.ok (change a conf).1, (change a conf).2) := by
  simp only [apply, checked, ExceptT.run_mk, StateT.run, h]

/-- A checked edit whose check fails. -/
lemma apply_checked_error {check : Configuration → Except ConfigError α}
    {change : α → Configuration → β × Configuration} {e : ConfigError} (h : check conf = .error e) :
    (checked check change).apply conf = (.error e, conf) := by
  simp only [apply, checked, ExceptT.run_mk, StateT.run, h]

/-- A look at a configuration leaves it as it is. -/
lemma apply_look (f : Configuration → Except ConfigError α) :
    (look f).apply conf = (f conf, conf) := by
  cases h : f conf with
  | ok a => exact apply_checked_ok h
  | error e => exact apply_checked_error h

end Edit

/-! ## Checks -/

/-- Steps that succeed one after the other each succeed. -/
lemma bind_eq_ok {ε α β : Type} {x : Except ε α} {f : α → Except ε β} {b : β}
    (h : (x >>= f) = .ok b) : ∃ a, x = .ok a ∧ f a = .ok b := by
  cases x with
  | error e => cases h
  | ok a => exact ⟨a, rfl, h⟩

/-- One result after the other is given exactly when each of them is. -/
lemma bind_eq_ok_iff {ε α β : Type} {x : Except ε α} {f : α → Except ε β} {b : β} :
    (x >>= f) = .ok b ↔ ∃ a, x = .ok a ∧ f a = .ok b := by
  refine ⟨bind_eq_ok, ?_⟩
  rintro ⟨a, rfl, h⟩
  exact h

/-- One result after the other fails exactly where one of them does. -/
lemma bind_eq_error_iff {ε α β : Type} {x : Except ε α} {f : α → Except ε β} {e : ε} :
    (x >>= f) = .error e ↔ x = .error e ∨ ∃ a, x = .ok a ∧ f a = .error e := by
  cases x with
  | error e' =>
    refine ⟨fun h => .inl (congrArg Except.error (Except.error.inj h)), ?_⟩
    rintro (⟨⟨⟩⟩ | ⟨_, ⟨⟩, -⟩)
    rfl
  | ok a =>
    refine ⟨fun h => .inr ⟨a, rfl, h⟩, ?_⟩
    rintro (⟨⟨⟩⟩ | ⟨_, ⟨⟩, h⟩)
    exact h

/-- A result is handed on. -/
lemma ok_bind {ε α β : Type} (a : α) (f : α → Except ε β) : (Except.ok a >>= f) = f a := rfl

/-- What succeeds has a result. -/
lemma isOk_iff {ε α : Type} {x : Except ε α} : x.isOk = true ↔ ∃ a, x = .ok a := by
  cases x <;> simp [Except.isOk, Except.toBool]

/-- The result of what succeeds. -/
lemma mem_toOption {ε α : Type} {x : Except ε α} {a : α} : a ∈ x.toOption ↔ x = .ok a := by
  cases x <;> simp [Except.toOption]

namespace Configuration

variable {conf : Configuration} {id : NodeId} {d : NodeData} {name raw : String}

/-- A configuration passes the check exactly when it is not read-only. -/
lemma checkWritable_ok {u : Unit} : conf.checkWritable = .ok u ↔ conf.readOnly = false := by
  unfold checkWritable
  cases conf.readOnly <;> simp

/-- A node can be required if it is live. -/
lemma requireLive_ok : conf.requireLive id = .ok d ↔ conf.live? id = some d := by
  unfold requireLive
  cases conf.live? id <;> simp

/-- Only a live section is found. -/
lemma requireSection_ok :
    conf.requireSection id = .ok d ↔ conf.live? id = some d ∧ d.kind = .sectionKind := by
  unfold requireSection
  rw [NodeData.kind_eq_sectionKind]
  cases conf.live? id with
  | none => simp
  | some e =>
    by_cases he : e.isSection
    · simp only [he, if_true, Except.ok.injEq, Option.some.injEq]
      constructor
      · rintro rfl
        exact ⟨rfl, he⟩
      · exact And.left
    · simp only [he, if_false, reduceCtorEq, Option.some.injEq, false_iff, not_and]
      rintro rfl
      exact he

/-- A stored name is the trimmed one, and is not empty. -/
lemma validName?_eq_some : validName? raw = some name ↔ Text.trim raw = name ∧ name ≠ "" := by
  simp only [validName?, String.isEmpty_iff]
  split
  · rename_i h
    simp only [reduceCtorEq, false_iff, not_and, h]
    rintro rfl h'
    exact h' rfl
  · rename_i h
    simp only [Option.some.injEq]
    constructor
    · rintro rfl
      exact ⟨rfl, h⟩
    · exact And.left

/-- A name can be required if it is valid. -/
lemma requireName_ok : requireName raw = .ok name ↔ validName? raw = some name := by
  unfold requireName
  cases validName? raw <;> simp

/-- A stored name is a good name. -/
lemma goodName_of_validName? (h : validName? raw = some name) : GoodName name := by
  obtain ⟨rfl, hne⟩ := validName?_eq_some.1 h
  exact ⟨hne, Text.trim_trim raw⟩

/-- A good name is stored as it is. -/
lemma validName?_of_goodName (h : GoodName name) : validName? name = some name :=
  validName?_eq_some.2 ⟨h.2, h.1⟩

/-- A node can be appended if the configuration is open to edits, its name is not blank and its
parent is a section. -/
lemma appendable_iff {parent : NodeId} :
    (do
      conf.checkWritable
      let name ← requireName raw
      let _ ← conf.requireSection parent
      return name : Except ConfigError String) = .ok name ↔
    conf.readOnly = false ∧ Text.trim raw = name ∧ GoodName name ∧
      ∃ pd, conf.live? parent = some pd ∧ pd.kind = .sectionKind := by
  constructor
  · intro h
    obtain ⟨_, writable, h⟩ := bind_eq_ok h
    obtain ⟨stored, named, h⟩ := bind_eq_ok h
    obtain ⟨pd, found, h⟩ := bind_eq_ok h
    cases h
    have valid := requireName_ok.1 named
    exact ⟨checkWritable_ok.1 writable, (validName?_eq_some.1 valid).1,
      goodName_of_validName? valid, pd, requireSection_ok.1 found⟩
  · rintro ⟨writable, trimmed, good, pd, found⟩
    have open' : conf.checkWritable = .ok () := checkWritable_ok.2 writable
    rw [open', requireName_ok.2 (validName?_eq_some.2 ⟨trimmed, good.1⟩),
      requireSection_ok.2 found]
    rfl

/-! ## What one change can do -/

/-- A primitive edit that succeeds. -/
inductive Change (conf : Configuration) : Configuration → Prop where
  | add {kind : Kind} {parent : NodeId} {pd : NodeData} {name : String} {value : Option String} :
    conf.readOnly = false →
    conf.live? parent = some pd →
    pd.kind = .sectionKind →
    GoodName name →
    Change conf (conf.addNode kind parent name value)
  | setValue {id : NodeId} {d : NodeData} {value : Option String} :
    conf.readOnly = false →
    conf.live? id = some d →
    Change conf (conf.replaceValue id value)
  | rename {id : NodeId} {d : NodeData} {name : String} :
    conf.readOnly = false →
    conf.live? id = some d →
    GoodName name →
    Change conf (conf.replaceName id name)
  | remove {id parent : NodeId} {d pd : NodeData} :
    conf.readOnly = false →
    conf.live? id = some d →
    d.parent = some parent →
    conf.live? parent = some pd →
    Change conf (conf.removeNode parent id)
  | empty {id : NodeId} {d : NodeData} :
    conf.readOnly = false →
    conf.live? id = some d →
    d.kind = .sectionKind →
    Change conf (conf.emptyNode id)

/-- Changes do not freeze a configuration. -/
lemma readOnly_of_changes {conf' : Configuration} (h : ReflTransGen Change conf conf') :
    conf'.readOnly = conf.readOnly := by
  induction h with
  | refl => rfl
  | tail _ change ih => cases change <;> exact ih

/-- A frozen configuration does not change. -/
lemma eq_of_changes (frozen : conf.readOnly = true) {conf' : Configuration}
    (h : ReflTransGen Change conf conf') : conf' = conf := by
  rcases h.cases_head with same | ⟨next, first, -⟩
  · exact same.symm
  · cases first <;> simp_all

end Configuration

/-! ## What an edit can do -/

namespace Edit

open ConfTree.Configuration

/-- An edit that checks first whether the configuration is writable is refused by a frozen one. -/
lemma apply_refused {α β : Type} {conf : Configuration} (frozen : conf.readOnly = true)
    {check : Configuration → Except ConfigError α} {rest : Except ConfigError α}
    {change : α → Configuration → β × Configuration}
    (h : check conf = conf.checkWritable >>= fun _ => rest) :
    (checked check change).apply conf = (.error .readOnly, conf) := by
  have closed : conf.checkWritable = .error .readOnly := if_pos frozen
  rw [closed] at h
  exact apply_checked_error h

variable {α β : Type} {step : Configuration → Configuration → Prop}

/-- The edit does no more than a sequence of steps, however it ends. -/
def Makes (step : Configuration → Configuration → Prop) (edit : Edit α) : Prop :=
  ∀ conf, ReflTransGen step conf (edit.apply conf).2

/-- To do nothing makes no step. -/
lemma Makes.pure (a : α) : Makes step (Pure.pure a : Edit α) := fun _ => .refl

/-- To fail makes no step. -/
lemma Makes.throw (e : ConfigError) : Makes step (throw e : Edit α) := fun _ => .refl

/-- To look makes no step. -/
lemma Makes.look (f : Configuration → Except ConfigError α) : Makes step (Edit.look f) := by
  intro conf
  rw [apply_look]

/-- One edit after the other makes the steps of both. -/
lemma Makes.bind {x : Edit α} {f : α → Edit β} (hx : Makes step x) (hf : ∀ a, Makes step (f a)) :
    Makes step (x >>= f) := by
  intro conf
  have h := hx conf
  rw [apply_bind]
  revert h
  rcases x.apply conf with ⟨_ | a, conf'⟩
  · intro h
    exact h
  · intro h
    exact h.trans (hf a conf')

/-- Either of two edits makes its steps. -/
lemma Makes.ite {c : Prop} [Decidable c] {x y : Edit α} (hx : Makes step x) (hy : Makes step y) :
    Makes step (if c then x else y) := by
  split
  · exact hx
  · exact hy

/-! ## Single changes -/

/-- The edit makes one change if it succeeds, and none if it fails. -/
structure Atomic (edit : Edit α) : Prop where
  change : ∀ {conf a conf'}, edit.apply conf = (.ok a, conf') → Change conf conf'
  same : ∀ {conf e conf'}, edit.apply conf = (.error e, conf') → conf' = conf

/-- A checked edit is atomic if its check allows for its change. -/
lemma Atomic.checked {check : Configuration → Except ConfigError α}
    {change : α → Configuration → β × Configuration}
    (h : ∀ conf a, check conf = .ok a → Change conf (change a conf).2) :
    Atomic (Edit.checked check change) := by
  constructor
  · intro conf b conf' run
    cases hc : check conf with
    | ok a =>
      rw [apply_checked_ok hc] at run
      cases run
      exact h conf a hc
    | error e =>
      rw [apply_checked_error hc] at run
      cases run
  · intro conf e conf' run
    cases hc : check conf with
    | ok a =>
      rw [apply_checked_ok hc] at run
      cases run
    | error e =>
      rw [apply_checked_error hc] at run
      cases run
      rfl

/-- Appending a node is one change. -/
lemma Atomic.append (kind : Kind) (parent : NodeId) (name : String) (value : Option String) :
    Atomic (Edit.append kind parent name value) := by
  -- Each check that was passed is a premise of the change.
  refine .checked fun conf a h => ?_
  obtain ⟨writable, -, good, pd, hp, hk⟩ := appendable_iff.1 h
  exact Change.add writable hp hk good

/-- Setting a value is one change. -/
lemma Atomic.setValue (id : NodeId) (value : Option String) :
    Atomic (Edit.setValue id value) := by
  refine .checked fun conf a h => ?_
  obtain ⟨u, hw, h⟩ := bind_eq_ok h
  obtain ⟨d, hd, -⟩ := bind_eq_ok h
  exact Change.setValue (checkWritable_ok.1 hw) (requireLive_ok.1 hd)

/-- Renaming a node is one change. -/
lemma Atomic.rename (id : NodeId) (name : String) : Atomic (Edit.rename id name) := by
  refine .checked fun conf a h => ?_
  obtain ⟨u, hw, h⟩ := bind_eq_ok h
  obtain ⟨b, hn, h⟩ := bind_eq_ok h
  obtain ⟨d, hd, h⟩ := bind_eq_ok h
  cases h
  exact Change.rename (checkWritable_ok.1 hw) (requireLive_ok.1 hd)
    (goodName_of_validName? (requireName_ok.1 hn))

/-- Deleting a node is one change. -/
lemma Atomic.delete (id : NodeId) : Atomic (Edit.delete id) := by
  refine .checked fun conf a h => ?_
  obtain ⟨u, hw, h⟩ := bind_eq_ok h
  obtain ⟨d, hd, h⟩ := bind_eq_ok h
  cases hp : d.parent with
  | none =>
    rw [hp] at h
    cases h
  | some parent =>
    rw [hp] at h
    obtain ⟨pd, hpd, h⟩ := bind_eq_ok h
    cases h
    exact Change.remove (checkWritable_ok.1 hw) (requireLive_ok.1 hd) hp (requireLive_ok.1 hpd)

/-- Clearing a section is one change. -/
lemma Atomic.clear (id : NodeId) : Atomic (Edit.clear id) := by
  refine .checked fun conf a h => ?_
  obtain ⟨u, hw, h⟩ := bind_eq_ok h
  obtain ⟨d, hd, -⟩ := bind_eq_ok h
  obtain ⟨hd, hk⟩ := requireSection_ok.1 hd
  exact Change.empty (checkWritable_ok.1 hw) hd hk

/-- An atomic edit makes one change or none. -/
lemma Atomic.makes {edit : Edit α} (h : Atomic edit) : Makes Change edit := by
  intro conf
  rcases run : edit.apply conf with ⟨e | a, conf'⟩
  · rw [h.same run]
  · exact .single (h.change run)

/-- Appending makes changes only. -/
lemma Makes.append (kind : Kind) (parent : NodeId) (name : String) (value : Option String) :
    Makes Change (Edit.append kind parent name value) :=
      (Atomic.append kind parent name value).makes

/-- Setting a value makes changes only. -/
lemma Makes.setValue (id : NodeId) (value : Option String) :
    Makes Change (Edit.setValue id value) := (Atomic.setValue id value).makes

/-- Renaming makes changes only. -/
lemma Makes.rename (id : NodeId) (name : String) : Makes Change (Edit.rename id name) :=
  (Atomic.rename id name).makes

/-- Deleting makes changes only. -/
lemma Makes.delete (id : NodeId) : Makes Change (Edit.delete id) := (Atomic.delete id).makes

/-- Clearing makes changes only. -/
lemma Makes.clear (id : NodeId) : Makes Change (Edit.clear id) := (Atomic.clear id).makes

/-! ## What an edit keeps -/

variable {inv : Configuration → Prop} {Q : α → Prop} {R : β → Prop}

/-- The edit keeps an invariant, however it ends, and if it succeeds then with such a result. -/
def Keeps (inv : Configuration → Prop) (edit : Edit α) (Q : α → Prop) : Prop :=
  ∀ conf, inv conf → inv (edit.apply conf).2 ∧ ∀ a, (edit.apply conf).1 = .ok a → Q a

/-- To do nothing keeps every invariant. -/
lemma Keeps.pure {a : α} (h : Q a) : Keeps inv (Pure.pure a : Edit α) Q := by
  refine fun conf hi => ⟨hi, ?_⟩
  rintro _ ⟨⟩
  exact h

/-- To read the configuration keeps every invariant, and gives a configuration that meets it. -/
lemma Keeps.get : Keeps inv (MonadState.get : Edit Configuration) inv := by
  refine fun conf hi => ⟨hi, ?_⟩
  rintro _ ⟨⟩
  exact hi

/-- Edits one after the other keep what each of them keeps. -/
lemma Keeps.bind {x : Edit α} {f : α → Edit β} (hx : Keeps inv x Q)
    (hf : ∀ a, Q a → Keeps inv (f a) R) : Keeps inv (x >>= f) R := by
  intro conf hi
  obtain ⟨hi, hr⟩ := hx conf hi
  rw [apply_bind]
  revert hi hr
  rcases x.apply conf with ⟨e | a, conf'⟩
  · exact fun hi _ => ⟨hi, nofun⟩
  · exact fun hi hr => hf a (hr a rfl) conf' hi

/-- Either of two edits keeps what both keep. -/
lemma Keeps.ite {c : Prop} [Decidable c] {x y : Edit α} (hx : Keeps inv x Q) (hy : Keeps inv y Q) :
    Keeps inv (if c then x else y) Q := by
  split
  · exact hx
  · exact hy

/-- A checked edit keeps what its change keeps where the check succeeds. -/
lemma Keeps.checked {γ : Type} {check : Configuration → Except ConfigError γ}
    {change : γ → Configuration → α × Configuration}
    (h : ∀ conf c, inv conf → check conf = .ok c → inv (change c conf).2 ∧ Q (change c conf).1) :
    Keeps inv (Edit.checked check change) Q := by
  intro conf hi
  cases hc : check conf with
  | ok c =>
    rw [apply_checked_ok hc]
    refine ⟨(h conf c hi hc).1, ?_⟩
    rintro _ ⟨⟩
    exact (h conf c hi hc).2
  | error e =>
    rw [apply_checked_error hc]
    exact ⟨hi, nofun⟩

/-- To look keeps every invariant. -/
lemma Keeps.look {f : Configuration → Except ConfigError α}
    (h : ∀ conf a, inv conf → f conf = .ok a → Q a) : Keeps inv (Edit.look f) Q :=
  .checked fun conf a hi ha => ⟨hi, h conf a hi ha⟩

end Edit

end ConfTree
