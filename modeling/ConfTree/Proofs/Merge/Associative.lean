import ConfTree.Proofs.Merge.Refinement
import ConfTree.Proofs.Operation.Reachable

/-!
# Merging layers

Uniformly keyed layers can be merged in any grouping, and empty layers do not count
(`merge_layers`). In the arena each merge gives the merge of the shapes (`merge_shape`), which is
associative.
-/

namespace ConfTree.Configuration

open ConfTree.Text

variable {process : Host} {rules : Rules} {a b c : Configuration} {keyed : String → Prop}

/-- The shape of a section does not depend on whether the configuration can be edited. -/
lemma shape_unfrozen (wf : a.WellFormed) {id : Nat} {d : NodeData} (h : a.live? id = some d) :
    a.unfrozen.shape id = a.shape id :=
  shape_congr wf (wf.of_nodes_eq rfl) h fun _ _ => rfl

/-- Configurations whose shapes fit can be merged, and the shape of the merge is the merge of the
shapes. -/
lemma merge_shape (process : Host) (wfa : a.WellFormed) (wfb : b.WellFormed)
    (appends : rules.appends = false)
    (respects : ∀ x y, sameName x y = true → (keyed x ↔ keyed y))
    (fitsA : Fits rules keyed (a.shape root)) (fitsB : Fits rules keyed (b.shape root)) :
    ∃ conf, merge process rules a b = .ok conf ∧ conf.WellFormed ∧
      conf.shape root = (a.shape root).merge rules.keyName (b.shape root) := by
  obtain ⟨d, live, sec, -⟩ := wfa.root
  obtain ⟨e, live', sec', -⟩ := wfb.root
  have wf : a.unfrozen.WellFormed := wfa.of_nodes_eq rfl
  have same := shape_unfrozen wfa live
  have open' : a.unfrozen.live? root = some d := live
  obtain ⟨conf, run, confined, shape⟩ := Edit.mergeSection_spec process wfb appends respects
    (b.subtree root) (takenFrom_subtree live' sec') fitsB wf rfl open' sec (same ▸ fitsA)
  refine ⟨conf, ?_, confined.wellFormed, by rw [shape, same]; rfl⟩
  rw [merge, overrideBy_apply process wfb open' sec, run]

/-- Uniformly keyed layers can be merged in any grouping, with the same tree as the result, and a
layer without content leaves the tree of another as it is, up to the name of the root if it comes
first. -/
theorem merge_layers (process : Host) (ha : Reachable a) (hb : Reachable b) (hc : Reachable c)
    (appends : rules.appends = false)
    (uniform : Uniform rules [a.shape root, b.shape root, c.shape root]) :
    (∃ ab bc left right, merge process rules a b = .ok ab ∧ merge process rules ab c = .ok left ∧
      merge process rules b c = .ok bc ∧ merge process rules a bc = .ok right ∧
      left.shape root = right.shape root) ∧
      ∀ (e : Configuration) (name : String), Reachable e → e.shape root = .mk name none [] [] →
        (∃ left, merge process rules a e = .ok left ∧ left.shape root = a.shape root) ∧
          ∃ right, merge process rules e a = .ok right ∧ right.shape root =
            .mk name (a.shape root).value (a.shape root).attributes (a.shape root).children := by
  have respects : ∀ x y, sameName x y = true →
      (KeyedIn rules [a.shape root, b.shape root, c.shape root] x ↔ KeyedIn rules _ y) :=
    fun _ _ => keyedIn_respects
  have fitsA := uniform.fits (s := a.shape root) (by simp)
  have fitsB := uniform.fits (s := b.shape root) (by simp)
  have fitsC := uniform.fits (s := c.shape root) (by simp)
  have wfa := ha.wellFormed
  have wfb := hb.wellFormed
  have wfc := hc.wellFormed
  refine ⟨?_, fun e name he empty => ?_⟩
  · obtain ⟨ab, runAB, wfAB, shapeAB⟩ := merge_shape process wfa wfb appends respects fitsA fitsB
    obtain ⟨bc, runBC, wfBC, shapeBC⟩ := merge_shape process wfb wfc appends respects fitsB fitsC
    obtain ⟨left, runL, -, shapeL⟩ := merge_shape process wfAB wfc appends respects
      (shapeAB ▸ fitsA.merge respects fitsB) fitsC
    obtain ⟨right, runR, -, shapeR⟩ := merge_shape process wfa wfBC appends respects fitsA
      (shapeBC ▸ fitsB.merge respects fitsC)
    refine ⟨ab, bc, left, right, runAB, runL, runBC, runR, ?_⟩
    rw [shapeL, shapeR, shapeAB, shapeBC, Shape.merge_assoc]
  · have fitsE : Fits rules (KeyedIn rules [a.shape root, b.shape root, c.shape root])
        (e.shape root) := by
      rw [empty]
      exact .mk (by simp) (by simp) (by simp) .nil
    obtain ⟨left, runL, -, shapeL⟩ := merge_shape process wfa he.wellFormed appends respects fitsA
      fitsE
    obtain ⟨right, runR, -, shapeR⟩ := merge_shape process he.wellFormed wfa appends respects fitsE
      fitsA
    refine ⟨⟨left, runL, ?_⟩, right, runR, ?_⟩
    · rw [shapeL, empty, Shape.merge_empty]
    · rw [shapeR, empty, Shape.empty_merge]

/-- Three layers with a section that two of them key alike, and an unkeyed one. -/
theorem merge_layers_sample :
    let layer := fun key value => (withRoot "base").operateAll
      [(.bare, .addSection 0 "Server" none), (.bare, .addAttribute 1 "name" (some key)),
        (.bare, .addAttribute 1 "port" value), (.bare, .addSection 0 "log" value)]
    ∃ ab bc left right,
      merge .bare .standard (layer "x" (some "1")) (layer "y" none) = .ok ab ∧
      merge .bare .standard ab (layer "x" (some "2")) = .ok left ∧
      merge .bare .standard (layer "y" none) (layer "x" (some "2")) = .ok bc ∧
      merge .bare .standard (layer "x" (some "1")) bc = .ok right ∧
      left.shape root = right.shape root := by
  intro layer
  have reach : ∀ key value, Reachable (layer key value) := fun key value =>
    (Reachable.withRoot "base").operateAll _ (by simp [Operation.others])
  have uniform : Uniform .standard [(layer "x" (some "1")).shape root, (layer "y" none).shape root,
      (layer "x" (some "2")).shape root] := by decide +kernel
  exact (merge_layers .bare (reach "x" (some "1")) (reach "y" none) (reach "x" (some "2")) rfl
    uniform).1

end ConfTree.Configuration
