import ConfTree.Proofs.Operation.Reachable
import ConfTree.Proofs.Tree.Shape

/-!
# Configurations and documents

What the formats have in common: a reader starts with an empty root and forgets at the end what it
modified, and a writer asks for a section.
-/

namespace ConfTree.Configuration

variable {conf : Configuration}

/-- A new configuration is an empty root. -/
lemma shape_withRoot {name : String} (good : GoodName name) :
    (withRoot name).shape root = .mk name none [] [] := by
  have live : (withRoot name).live? root = some ⟨(validName? name).getD defaultRootName, none, none,
      .lists #[] #[], false, false⟩ := rfl
  rw [shape_eq (wellFormed_withRoot name) live, validName?_of_goodName good]
  rfl

/-- Forgetting what was modified leaves all shapes. -/
lemma shape_resetModified (wf : conf.WellFormed) {id : Nat} {d : NodeData}
    (h : conf.live? id = some d) : conf.resetModified.shape id = conf.shape id := by
  refine shape_congr wf wf.resetModified h fun x _ => ?_
  rw [view, view, live?_resetModified, Option.map_map]
  rfl

/-- A live section can be the root of a document. -/
lemma write_section (format : Format) {id : NodeId} {d : NodeData} (h : conf.live? id = some d)
    (sec : d.kind = .sectionKind) : format.write conf (some id) = format.writeSection conf id := by
  have sec' : conf.isSection id = true := by
    simp [Configuration.isSection, h, NodeData.kind_eq_sectionKind.1 sec]
  rw [Format.write, requireSectionOf, if_pos sec']
  rfl

end ConfTree.Configuration
