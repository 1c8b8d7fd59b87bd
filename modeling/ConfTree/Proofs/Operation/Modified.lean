import ConfTree.Proofs.Tree.Removal

/-!
# What was modified

A configuration is modified if a live node is flagged. A change flags a node that is live after it,
so a configuration that was changed is modified whatever was deleted since. Nothing but a change
flags a node. So a configuration that starts without flags is modified after any sequence of
operations exactly if some primitive edit in it succeeded (`isModified_operateAll`).
-/

namespace ConfTree

open ConfTree.Configuration

/-! ## Tallies of operations -/

/-- The number of primitive edits of the configuration that succeed in the operation. -/
def Operation.Tally (process : Host) (conf : Configuration) (n : Nat) : Operation → Prop
  | addSection parent name value => (Edit.addSection parent name value).Tally conf n
  | addAttribute parent name value => (Edit.addAttribute parent name value).Tally conf n
  | setValue id value => (Edit.setValue id value).Tally conf n
  | rename id name => (Edit.rename id name).Tally conf n
  | delete id => (Edit.delete id).Tally conf n
  | clear id => (Edit.clear id).Tally conf n
  | importNode parent other node => (Edit.importNode parent other node).Tally conf n
  | importRoot other => (Edit.importRoot other).Tally conf n
  | overrideBy rules source => (Edit.overrideBy process rules source).Tally conf n
  | overrideSection rules source target node =>
    (Edit.overrideSection process rules source target node).Tally conf n
  | runScript limits result =>
    ∃ m, (Script.runRoot process limits).Tally ⟨conf, result, 0⟩ n m
  | takeResult limits source =>
    ∃ m, (Script.runRoot process limits).Tally ⟨source, conf, 0⟩ m n
  | freeze => n = 0
  | resetModified => n = 0
  | setEnvironment _ => n = 0
  | setProvider _ => n = 0
  | setTypeSearchPaths _ => n = 0

namespace Configuration

/-- The number of primitive edits of the configuration that succeed in operations one after the
other. -/
inductive TallyAll : Configuration → List (Host × Operation) → Nat → Prop where
  | nil {conf : Configuration} : TallyAll conf [] 0
  | cons {conf : Configuration} {process : Host} {op : Operation}
    {ops : List (Host × Operation)} {m n : Nat} :
    op.Tally process conf m →
    TallyAll (op.apply process conf) ops n →
    TallyAll conf ((process, op) :: ops) (m + n)

variable {conf conf' : Configuration} {process : Host} {op : Operation}
  {ops : List (Host × Operation)} {n : Nat}

/-- The primitive edits that succeed in an operation can be counted. -/
lemma exists_tally (process : Host) (op : Operation) (conf : Configuration) :
    ∃ n, op.Tally process conf n := by
  cases op with
  | addSection | addAttribute => exact (Edit.Composed.append _ _ _ _).exists_tally conf
  | setValue => exact (Edit.Composed.setValue _ _).exists_tally conf
  | rename => exact (Edit.Composed.rename _ _).exists_tally conf
  | delete => exact (Edit.Composed.delete _).exists_tally conf
  | clear => exact (Edit.Composed.clear _).exists_tally conf
  | importNode => exact (Edit.Composed.importNode _ _ _).exists_tally conf
  | importRoot => exact (Edit.Composed.importRoot _).exists_tally conf
  | overrideBy => exact (Edit.Composed.overrideBy _ _ _).exists_tally conf
  | overrideSection => exact (Edit.Composed.overrideSection _ _ _ _ _).exists_tally conf
  | runScript limits result =>
    exact (Script.runRoot_composed process limits).exists_tally ⟨conf, result, 0⟩
  | takeResult limits source =>
    obtain ⟨m, n, tally⟩ :=
      (Script.runRoot_composed process limits).exists_tally ⟨source, conf, 0⟩
    exact ⟨n, m, tally⟩
  | freeze | resetModified | setEnvironment | setProvider | setTypeSearchPaths => exact ⟨0, rfl⟩

/-- The primitive edits of a run of operations can be counted. -/
lemma exists_tallyAll (ops : List (Host × Operation)) (conf : Configuration) :
    ∃ n, TallyAll conf ops n := by
  induction ops generalizing conf with
  | nil => exact ⟨0, .nil⟩
  | cons op ops ih =>
    obtain ⟨m, first⟩ := exists_tally op.1 op.2 conf
    obtain ⟨n, others⟩ := ih (op.2.apply op.1 conf)
    exact ⟨m + n, .cons first others⟩

/-! ## Flags -/

/-- A change flags a node that is live after it. -/
lemma Change.isModified (wf : conf.WellFormed) (h : Change conf conf') :
    conf'.isModified = true := by
  rw [isModified_iff]
  cases h with
  | add _ hp => exact ⟨_, _, live?_addNode_parent hp, rfl⟩
  | setValue _ hd => exact ⟨_, _, live?_replaceValue_self hd, rfl⟩
  | rename _ hd => exact ⟨_, _, live?_replaceName_self hd, rfl⟩
  | remove _ hd hp hpd =>
    obtain ⟨_, _, -, kept, -⟩ := (uprooted_removeNode wf hd hp hpd).shrunk
    exact ⟨_, _, kept, rfl⟩
  | empty _ hd => exact ⟨_, _, live?_emptyNode_self wf hd, rfl⟩

/-- After changes the configuration is modified if there was one, or if it was modified before. -/
lemma Changes.isModified_iff (wf : conf.WellFormed) (h : Changes n conf conf') :
    conf'.isModified = true ↔ 0 < n ∨ conf.isModified = true := by
  cases h with
  | refl => simp
  | tail before last =>
    -- The last change alone flags a live node, whatever those before it flagged.
    have modified := last.isModified (wf.changes before.steps)
    simp [modified]

/-- An operation that is no reset leaves the configuration modified if a primitive edit succeeds in
it, or if it was modified before. -/
lemma isModified_operate (wf : conf.WellFormed) (kept : op ≠ .resetModified)
    (tally : op.Tally process conf n) :
    (op.apply process conf).isModified = true ↔ 0 < n ∨ conf.isModified = true := by
  cases op with
  | addSection | addAttribute | setValue | rename | delete | clear | importNode | importRoot
  | overrideBy | overrideSection => exact (Edit.Tally.changes tally).isModified_iff wf
  | runScript =>
    obtain ⟨m, tally⟩ := tally
    exact tally.changes.1.isModified_iff wf
  | takeResult =>
    obtain ⟨m, tally⟩ := tally
    exact tally.changes.2.isModified_iff wf
  | freeze | setEnvironment | setProvider | setTypeSearchPaths =>
    obtain rfl : n = 0 := tally
    simp only [lt_irrefl, false_or]
    rfl
  | resetModified => exact absurd rfl kept

/-- After operations without a reset, something is modified if it was before or if an edit was
made. -/
lemma TallyAll.isModified_iff (tally : TallyAll conf ops n) (wf : conf.WellFormed)
    (kept : ∀ op ∈ ops, op.2 ≠ .resetModified) :
    (conf.operateAll ops).isModified = true ↔ 0 < n ∨ conf.isModified = true := by
  induction tally with
  | nil => simp [operateAll]
  | @cons conf process op ops m n first _ ih =>
    obtain ⟨here, later⟩ := List.forall_mem_cons.1 kept
    rw [operateAll, ih (wf.operate process op) later, isModified_operate wf here first,
      ← or_assoc, or_comm (a := 0 < n), Nat.add_pos_iff_pos_or_pos]

/-! ## From a configuration without flags -/

/-- A configuration that was not edited since it was made, read or reset. -/
inductive Fresh : Configuration → Prop where
  | withRoot (name : String) : Fresh (withRoot name)
  | read {format : Format} {text : String} {conf : Configuration} :
    format.read text = .ok conf →
    Fresh conf
  | resetModified {conf : Configuration} : Reachable conf → Fresh conf.resetModified

/-- What is fresh is reachable. -/
lemma Fresh.reachable (fresh : Fresh conf) : Reachable conf := by
  cases fresh with
  | withRoot name => exact .withRoot name
  | read h => exact .read h
  | resetModified reach => exact reach.operate .bare .resetModified (by simp [Operation.others])

/-- No node is flagged after a reset. -/
lemma isModified_resetModified (conf : Configuration) :
    conf.resetModified.isModified = false := by
  refine Bool.eq_false_iff.2 fun modified => ?_
  obtain ⟨id, d, live, flag⟩ := isModified_iff.1 modified
  rw [live?_resetModified, Option.map_eq_some_iff] at live
  obtain ⟨_, -, rfl⟩ := live
  cases flag

/-- In what is fresh nothing is modified. -/
lemma Fresh.isModified (fresh : Fresh conf) : conf.isModified = false := by
  cases fresh with
  | withRoot name => simp [Configuration.withRoot, Configuration.isModified]
  | read h =>
    obtain ⟨grown, -, rfl⟩ := Format.read_grown h
    exact isModified_resetModified grown
  | resetModified => exact isModified_resetModified _

/-- Operations on a configuration that was made, read or reset leave it modified exactly if a
primitive edit of it succeeds in some of them, however each of them ends, and whatever they delete.
In all operations the primitive edits that succeed can be counted. -/
theorem isModified_operateAll (fresh : Fresh conf) {ops : List (Host × Operation)}
    (kept : ∀ op ∈ ops, op.2 ≠ .resetModified) :
    (∃ n, TallyAll conf ops n) ∧
      ∀ n, TallyAll conf ops n → ((conf.operateAll ops).isModified = true ↔ 0 < n) := by
  refine ⟨exists_tallyAll ops conf, fun n tally => ?_⟩
  rw [tally.isModified_iff fresh.reachable.wellFormed kept, fresh.isModified]
  simp

/-- The only node that was edited is deleted again, and the last edit fails. Two edits that fail
modify nothing. A merge fails behind the first section that it copies. -/
theorem isModified_operateAll_sample :
    let conf := withRoot "base"
    let deleted : List (Host × Operation) :=
      [(.bare, .addSection 0 "a" none), (.bare, .delete 1), (.bare, .rename 0 " ")]
    let refused : List (Host × Operation) := [(.bare, .delete 0), (.bare, .setValue 7 none)]
    let guarded := ((withRoot "base").operateAll
      [(.bare, .addSection 0 "s" none),
       (.bare, .addAttribute 1 "_override" (some "fail"))]).resetModified
    let source := (withRoot "layer").operateAll
      [(.bare, .addSection 0 "new" none), (.bare, .addSection 0 "s" none)]
    (Fresh conf ∧ TallyAll conf deleted 2 ∧ (conf.operateAll deleted).isModified = true) ∧
      (TallyAll conf refused 0 ∧ (conf.operateAll refused).isModified = false) ∧
      (Fresh guarded ∧ ((Edit.overrideBy .bare .standard source).apply guarded).1.isOk = false ∧
        ∃ n, TallyAll guarded [(.bare, .overrideBy .standard source)] n ∧ 0 < n) := by
  intro conf deleted refused guarded source
  have fresh : Fresh conf := .withRoot "base"
  have keptD : ∀ op ∈ deleted, op.2 ≠ .resetModified := by simp [deleted]
  have keptR : ∀ op ∈ refused, op.2 ≠ .resetModified := by simp [refused]
  have added : ((Edit.addSection 0 "a" none).apply conf).1 = .ok 1 := by decide +kernel
  have removed : ((Edit.delete 1).apply (conf.operateAll (deleted.take 1))).1 = .ok () := by
    decide +kernel
  have unnamed : ((Edit.rename 0 " ").apply (conf.operateAll (deleted.take 2))).1 =
      .error (.invalidName " ") := by
    decide +kernel
  have two : TallyAll conf deleted (1 + (1 + (0 + 0))) :=
    .cons (Edit.Tally.succeeds (.append _ _ _ _) (Prod.ext added rfl)) <|
    .cons (Edit.Tally.succeeds (.delete _) (Prod.ext removed rfl)) <|
    .cons (Edit.Tally.fails (.rename _ _) (Prod.ext unnamed rfl)) .nil
  have top : ((Edit.delete 0).apply conf).1 = .error (.nonExistentNode .root) := by decide +kernel
  have stale : ((Edit.setValue 7 none).apply (conf.operateAll (refused.take 1))).1 =
      .error (.nonExistentNode (.stale 7)) := by
    decide +kernel
  have zero : TallyAll conf refused (0 + (0 + 0)) :=
    .cons (Edit.Tally.fails (.delete _) (Prod.ext top rfl)) <|
    .cons (Edit.Tally.fails (.setValue _ _) (Prod.ext stale rfl)) .nil
  have reset : Fresh guarded :=
    .resetModified ((Reachable.withRoot "base").operateAll _ (by simp [Operation.others]))
  have keptM : ∀ op ∈ [(Host.bare, Operation.overrideBy .standard source)],
      op.2 ≠ .resetModified := by
    simp
  obtain ⟨⟨n, tally⟩, counted⟩ := isModified_operateAll reset keptM
  refine ⟨⟨fresh, two, ((isModified_operateAll fresh keptD).2 2 two).2 (by decide)⟩,
    ⟨zero, Bool.eq_false_iff.2 fun modified => ?_⟩, reset, by decide +kernel, n, tally,
    (counted n tally).1 (by decide +kernel)⟩
  have := ((isModified_operateAll fresh keptR).2 0 zero).1 modified
  omega

end Configuration

end ConfTree
