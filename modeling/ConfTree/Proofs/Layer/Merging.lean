import ConfTree.Layer.Build
import ConfTree.Proofs.Operation.Frozen

/-!
# Layers that are merged

The layers of a blueprint are merged in place, into the first of them. If all layers are
configurations that are there already, this is to merge them from the left, each time into a copy
(`mergeAll`), unless the first one is frozen (`build_trees`). A frozen first layer stays frozen: the
build gets no further than to the first edit, and comes out frozen if there is none
(`not_build_frozen`).
-/

namespace ConfTree

open ConfTree.Configuration

/-- Configurations merged from the left, each into a copy of what the ones before it give. Without
any it is an empty configuration. -/
def Configuration.mergeAll (process : Host) (rules : Rules) :
    List Configuration → Except ConfigError Configuration
  | [] => .ok .empty
  | first :: rest => rest.foldlM (merge process rules) first

namespace Blueprint

variable {process : Host} {rules : Rules}

/-! ## Layers over a writable one -/

/-- What is not frozen is its own copy without the mark. -/
lemma unfrozen_eq {conf : Configuration} (writable : conf.readOnly = false) :
    conf.unfrozen = conf := by
  rw [unfrozen, ← writable]

/-- A merge that succeeds gives what it made of the copy. -/
lemma merge_ok {a merged : Configuration} {source : Configuration} {u : Unit}
    (run : (Edit.overrideBy process rules source).apply a.unfrozen = (.ok u, merged)) :
    merge process rules a source = .ok merged := by
  rw [merge, run]

/-- A merge that fails gives its error only. -/
lemma merge_error {a merged : Configuration} {source : Configuration} {e : ConfigError}
    (run : (Edit.overrideBy process rules source).apply a.unfrozen = (.error e, merged)) :
    merge process rules a source = .error e := by
  rw [merge, run]

/-- What a merge gives is writable. -/
lemma readOnly_merge {a b conf : Configuration} (h : merge process rules a b = .ok conf) :
    conf.readOnly = false := readOnly_of_changes (merge_changes h)

/-- Layers over a writable one are merged from the left. -/
lemma stack_writable {base : Configuration} (writable : base.readOnly = false)
    (confs : List Configuration) :
    stack process rules (some base) (confs.map .tree) =
      (confs.foldlM (merge process rules) base).map some := by
  induction confs generalizing base with
  | nil => rfl
  | cons source confs ih =>
    rw [List.map_cons, List.foldlM_cons, stack, Layer.load, ok_bind]
    dsimp only
    split
    · rename_i u merged run
      rw [← unfrozen_eq writable] at run
      have step := merge_ok run
      rw [step, ok_bind]
      exact ih (readOnly_merge step)
    · rename_i e merged run
      rw [← unfrozen_eq writable] at run
      rw [merge_error run]
      rfl

/-! ## Layers over a frozen one -/

/-- Layers that are merged over a frozen one have nothing to change in it, and so have nothing to
change in a copy of it. -/
lemma stack_frozen {base : Configuration} (frozen : base.readOnly = true)
    {confs : List Configuration} {merged : Option Configuration}
    (h : stack process rules (some base) (confs.map .tree) = .ok merged) :
    merged = some base ∧ ∀ copy : Configuration, copy.unfrozen = base.unfrozen →
      ∃ conf, confs.foldlM (merge process rules) copy = .ok conf ∧
        conf.unfrozen = base.unfrozen := by
  induction confs with
  | nil =>
    cases h
    exact ⟨rfl, fun copy same => ⟨copy, rfl, same⟩⟩
  | cons source confs ih =>
    rw [List.map_cons, stack, Layer.load, ok_bind] at h
    dsimp only at h
    split at h
    · rename_i u next run
      obtain ⟨rfl, idle⟩ :=
        Edit.Idle.overrideSection process rules source _ _ base frozen u next run
      obtain ⟨rfl, rest⟩ := ih h
      refine ⟨rfl, fun copy same => ?_⟩
      rw [← same] at idle
      rw [List.foldlM_cons, merge_ok idle, ok_bind]
      exact rest copy.unfrozen same
    · cases h

/-! ## Builds -/

/-- A build without a script gives what the layers are merged to, equipped and with nothing
modified, if the first layer is not frozen. -/
lemma build_writable {b : Blueprint} {confs : List Configuration}
    (layers : b.layers = confs.map .tree)
    (noScript : b.script = none) (unfrozen : b.frozen = false)
    (writable : ∀ first ∈ confs.head?, first.readOnly = false) :
    b.build process = Exit.lift
      ((mergeAll process b.rules confs).map fun merged => (b.equip merged).resetModified) := by
  have merged : (stack process b.rules none b.layers).map (·.getD .empty) =
      mergeAll process b.rules confs := by
    rw [layers]
    cases confs with
    | nil => rfl
    | cons first rest =>
      rw [List.map_cons, stack, Layer.load, ok_bind]
      dsimp only
      rw [stack_writable (writable first rfl)]
      show (Except.map _ (Except.map some (rest.foldlM _ first))) = rest.foldlM _ first
      cases rest.foldlM (merge process b.rules) first <;> rfl
  rw [build, noScript, unfrozen, ← merged]
  cases stack process b.rules none b.layers <;> rfl

/-- A build over a frozen first layer gives this layer, equipped and with nothing modified, and to
merge the layers changes nothing in it. -/
lemma build_frozen {b : Blueprint} {first conf : Configuration} {rest : List Configuration}
    (layers : b.layers = (first :: rest).map .tree) (noScript : b.script = none)
    (unfrozen : b.frozen = false) (frozen : first.readOnly = true)
    (built : b.build process = .ok conf) :
    conf = (b.equip first).resetModified ∧
      ∃ merged, mergeAll process b.rules (first :: rest) = .ok merged ∧
        merged.nodes = first.nodes := by
  rw [build, noScript, unfrozen, layers] at built
  obtain ⟨stacked, run, built⟩ := bind_eq_ok built
  cases built
  obtain ⟨rfl, fold⟩ := stack_frozen frozen (Exit.lift_eq_ok.1 run)
  obtain ⟨merged, folded, same⟩ := fold first rfl
  have nodes : merged.unfrozen.nodes = first.unfrozen.nodes := congrArg _ same
  exact ⟨rfl, merged, folded, nodes⟩

/-- Configurations that are merged from a writable one on give a writable one. -/
lemma readOnly_foldlM {confs : List Configuration} {base conf : Configuration}
    (writable : base.readOnly = false) (h : confs.foldlM (merge process rules) base = .ok conf) :
    conf.readOnly = false := by
  induction confs generalizing base with
  | nil =>
    cases h
    exact writable
  | cons source confs ih =>
    obtain ⟨next, step, rest⟩ := bind_eq_ok (List.foldlM_cons.symm.trans h)
    exact ih (readOnly_merge step) rest

/-- What is merged is frozen only if the first layer is. -/
lemma readOnly_mergeAll {confs : List Configuration} {conf : Configuration}
    (writable : ∀ first ∈ confs.head?, first.readOnly = false)
    (h : mergeAll process rules confs = .ok conf) : conf.readOnly = false := by
  cases confs with
  | nil =>
    cases h
    rfl
  | cons first rest => exact readOnly_foldlM (writable first rfl) h

/-- After a reset nothing is modified. -/
lemma isModified_resetModified (conf : Configuration) : conf.resetModified.isModified = false := by
  simp [isModified, Configuration.resetModified]

/-- If configurations are built into one without a script, and this is not to be frozen, then they
can be merged from the left, and the build gives the same nodes with the same names, values and
lists. None of them counts as modified, and they are frozen exactly if the first of the
configurations was. If that one is not frozen, the build succeeds exactly if the merges do. -/
theorem build_trees (process : Host) {b : Blueprint} {confs : List Configuration}
    (layers : b.layers = confs.map .tree) (noScript : b.script = none)
    (unfrozen : b.frozen = false) :
    (∀ conf, b.build process = .ok conf →
      ∃ merged, mergeAll process b.rules confs = .ok merged ∧
        conf.nodes = merged.resetModified.nodes ∧ conf.isModified = false ∧
        (conf.readOnly = true ↔ ∃ first ∈ confs.head?, first.readOnly = true)) ∧
      ((∀ first ∈ confs.head?, first.readOnly = false) →
        ((b.build process).isOk = true ↔ (mergeAll process b.rules confs).isOk = true)) := by
  refine ⟨fun conf built => ?_, fun writable => ?_⟩
  · by_cases closed : ∃ first ∈ confs.head?, first.readOnly = true
    · obtain ⟨first, head, frozen⟩ := closed
      obtain ⟨rest, rfl⟩ := List.head?_eq_some_iff.1 head
      obtain ⟨rfl, merged, folded, nodes⟩ := build_frozen layers noScript unfrozen frozen built
      refine ⟨merged, folded, ?_, isModified_resetModified _, fun _ => ⟨first, rfl, frozen⟩,
        fun _ => frozen⟩
      rw [Configuration.resetModified, Configuration.resetModified, nodes]
      rfl
    · have writable : ∀ first ∈ confs.head?, first.readOnly = false := fun first head =>
        Bool.eq_false_iff.2 fun frozen => closed ⟨first, head, frozen⟩
      rw [build_writable layers noScript unfrozen writable] at built
      cases folded : mergeAll process b.rules confs with
      | error e =>
        rw [folded] at built
        cases built
      | ok merged =>
        rw [folded] at built
        cases built
        have opened : merged.readOnly = false := readOnly_mergeAll writable folded
        exact ⟨merged, rfl, rfl, isModified_resetModified _,
          fun frozen => absurd frozen (Bool.eq_false_iff.1 opened),
          fun frozen => absurd frozen closed⟩
  · rw [build_writable layers noScript unfrozen writable]
    cases mergeAll process b.rules confs <;> exact Iff.rfl

/-- Three layers that share a section and differ in its attributes. The second one is frozen. -/
theorem build_trees_sample :
    let layer := fun name value => (withRoot "app").operateAll
      [(.bare, .addSection 0 "log" none), (.bare, .addAttribute 1 name (some value))]
    let confs := [layer "level" "1", (layer "LEVEL" "2").freeze, layer "file" "x"]
    let b : Blueprint := ⟨confs.map .tree, .standard, some (.fixed []), none, [], none, false⟩
    (∀ first ∈ confs.head?, first.readOnly = false) ∧
      (mergeAll .bare b.rules confs).isOk = true ∧
      ∃ conf merged, b.build .bare = .ok conf ∧ mergeAll .bare b.rules confs = .ok merged ∧
        conf.nodes = merged.resetModified.nodes ∧ conf.isModified = false ∧
        (conf.readOnly = true ↔ ∃ first ∈ confs.head?, first.readOnly = true) ∧
        conf.nodes.toList.map (fun d => (d.name, d.value)) =
          [("app", none), ("log", none), ("level", some "2"), ("file", some "x")] := by
  intro layer confs b
  have writable : ∀ first ∈ confs.head?, first.readOnly = false := by decide +kernel
  have folds : (mergeAll .bare b.rules confs).isOk = true := by decide +kernel
  have nodes : (b.build .bare).map (fun conf => conf.nodes.toList.map fun d => (d.name, d.value)) =
      .ok [("app", none), ("log", none), ("level", some "2"), ("file", some "x")] := by
    decide +kernel
  obtain ⟨whole, succeeds⟩ := @build_trees .bare b confs rfl rfl rfl
  obtain ⟨conf, built⟩ := isOk_iff.1 ((succeeds writable).2 folds)
  obtain ⟨merged, folded, same, clean, closed⟩ := whole conf built
  rw [built] at nodes
  exact ⟨writable, folds, conf, merged, built, folded, same, clean, closed, Except.ok.inj nodes⟩

/-- A frozen first layer refuses the second one, which can be merged into a copy of it. Alone it is
built, and comes out frozen, though this was not asked for. -/
theorem not_build_frozen :
    let first := (withRoot "base").freeze
    let layer := (withRoot "layer").operateAll [(.bare, .addAttribute 0 "x" (some "1"))]
    let build := fun confs : List Configuration =>
      (⟨confs.map .tree, .standard, some (.fixed []), none, [], none, false⟩ :
        Blueprint).build .bare
    (mergeAll .bare .standard [first, layer]).isOk = true ∧
      (build [first, layer]).map (fun _ => ()) = .error (.fails .readOnly) ∧
      (build [first]).map (·.readOnly) = .ok true := by
  decide +kernel

end Blueprint

end ConfTree
