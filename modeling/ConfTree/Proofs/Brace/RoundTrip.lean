import ConfTree.Proofs.Brace.Parsing
import ConfTree.Proofs.Operation.Documents

/-!
# Brace notation round trip

A section that is written in brace notation is read back with the same shape (`read_write_shape`):
the reader makes a copy of the tree that the writer took out of the arena, and a copy has the shape
of its original.
-/

namespace ConfTree.Configuration

variable {conf : Configuration}

/-- An empty configuration that is filled with a copy of a subtree has its shape. -/
lemma fill_spec {t : Subtree} (named : t.Named) :
    ∃ conf', (do
        Edit.setValue root t.value
        Edit.copyContent root t : Edit Unit).apply (withRoot t.name) = (.ok (), conf') ∧
      conf'.WellFormed ∧ conf'.shape root = t.shape := by
  obtain ⟨id, name, value, attributes, children⟩ := t
  have wf := wellFormed_withRoot name
  obtain ⟨d, live, sec, -⟩ := wf.root
  have shape := shape_withRoot named.1
  have own : d.name = name := by rw [← name_shape wf live, shape, Shape.name]
  -- With the value set, the root is as the writer found it, but for its entries.
  have set := Confined.replaceValue root value wf
  obtain ⟨e, he, kind, -⟩ := set.kept d live
  obtain ⟨conf', run, confined, filled⟩ :=
    Edit.copyContent_spec set.wellFormed rfl he (kind.trans sec) named
  refine ⟨conf', ?_, confined.wellFormed, ?_⟩
  · rw [Subtree.value, Subtree.name, Edit.apply_bind_ok (Edit.apply_setValue rfl live)]
    exact run
  · rw [filled, shape_replaceValue wf live, own, shape]
    rfl

/-- A section that is written in brace notation is read back with the same shape. -/
lemma exists_read_write (wf : conf.WellFormed) {id : Nat} {d : NodeData}
    (h : conf.live? id = some d) (sec : d.kind = .sectionKind) :
    ∃ text conf', Format.brace.write conf (some id) = .ok text ∧
      Format.brace.read text = .ok conf' ∧ conf'.shape root = conf.shape id := by
  obtain ⟨conf', run, wf', shape⟩ := fill_spec (named_subtree wf h)
  obtain ⟨r, hr, -⟩ := wf'.root
  refine ⟨Brace.write (conf.subtree id), conf'.resetModified, ?_, ?_, ?_⟩
  · rw [write_section _ h sec]
    rfl
  · rw [Format.read, Format.readModified, Brace.read_write (named_subtree wf h) run]
    rfl
  · rw [shape_resetModified wf' hr, shape]
    rfl

/-- A reachable configuration that is written in brace notation is read back with the same shape,
and so is each of its live sections as a root. -/
theorem read_write_shape (h : Reachable conf) :
    (∃ text conf', Format.brace.write conf (some root) = .ok text ∧
      Format.brace.read text = .ok conf' ∧ conf'.shape root = conf.shape root) ∧
      ∀ (id : NodeId) (d : NodeData), conf.live? id = some d → d.kind = .sectionKind →
        ∃ text conf', Format.brace.write conf (some id) = .ok text ∧
          Format.brace.read text = .ok conf' ∧ conf'.shape root = conf.shape id := by
  obtain ⟨r, hr, sec, -⟩ := h.wellFormed.root
  exact ⟨exists_read_write h.wellFormed hr sec, fun id d hd sec =>
    exists_read_write h.wellFormed hd sec⟩

/-- Names and values that a word cannot hold, and a value that is empty beside one that is absent.
-/
theorem read_write_shape_odd :
    let conf := (withRoot "base").operateAll
      [(.bare, .addSection 0 "// a \x7bb\x7d" (some "")), (.bare, .addAttribute 1 "x = \"y\"" none)]
    Reachable conf ∧ ∃ text conf', Format.brace.write conf (some root) = .ok text ∧
      Format.brace.read text = .ok conf' ∧ conf'.shape root = conf.shape root := by
  intro conf
  have reach : Reachable conf :=
    (Reachable.withRoot "base").operateAll _ (by simp [Operation.others])
  exact ⟨reach, (read_write_shape reach).1⟩

end ConfTree.Configuration
