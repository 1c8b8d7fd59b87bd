import ConfTree.Merge.Overlay
import ConfTree.Proofs.Tree.Tally

/-!
# Edits made of edits

Copies and merges are composed of primitive edits, so they do no more than a sequence of changes.
Each lemma follows the recursion of the edit that it is about.
-/

namespace ConfTree.Edit

open ConfTree.Configuration

/-! ## Copies -/

/-- Copying attributes is composed. -/
lemma Composed.copyAttributes (target : NodeId) (attributes : List Attribute) :
    Composed (copyAttributes target attributes) := by
  induction attributes with
  | nil => exact .pure ()
  | cons a attributes ih => exact .bind (.append _ _ _ _) fun _ => ih

mutual

/-- Copying a tree is composed. -/
lemma Composed.copySubtree (parent : NodeId) :
    ∀ t : Subtree, Composed (copySubtree parent t)
  | .mk _ name value attributes children => by
    rw [Edit.copySubtree]
    refine .bind (.append _ _ _ _) fun id => .bind (.copyAttributes id attributes) fun _ => ?_
    exact .bind (Composed.copySubtrees id children) fun _ => .pure id

/-- Copying trees is composed. -/
lemma Composed.copySubtrees (parent : NodeId) :
    ∀ ts : List Subtree, Composed (copySubtrees parent ts)
  | [] => .pure ()
  | t :: ts => by
    rw [Edit.copySubtrees]
    exact .bind (Composed.copySubtree parent t) fun _ => Composed.copySubtrees parent ts

end

/-- Copying the content of a section is composed. -/
lemma Composed.copyContent (target : NodeId) (source : Subtree) :
    Composed (copyContent target source) :=
  .bind (.copyAttributes target _) fun _ => .copySubtrees target _

/-- Importing a node is composed. -/
lemma Composed.importNode (parent : NodeId) (other : Configuration) (node : NodeId) :
    Composed (importNode parent other node) := by
  unfold Edit.importNode
  split
  · exact .throw _
  · exact .ite (.copySubtree parent _) (.append _ _ _ _)

/-- Importing a root is composed. -/
lemma Composed.importRoot (other : Configuration) : Composed (importRoot other) :=
  .bind (.clear _) fun _ => .bind (.rename _ _) fun _ => .bind (.setValue _ _) fun _ =>
    .copyContent _ _

/-! ## Merges -/

/-- Merging a value is composed. -/
lemma Composed.mergeValue (target : NodeId) (value : Option String) :
    Composed (mergeValue target value) :=
  .bind .get fun _ => .ite (.setValue _ _) (.pure ())

/-- Merging attributes is composed. -/
lemma Composed.mergeAttributes (target : NodeId) (seen : List String)
    (attributes : List Attribute) : Composed (mergeAttributes target seen attributes) := by
  induction attributes generalizing seen with
  | nil => exact .pure ()
  | cons a attributes ih =>
    rw [Edit.mergeAttributes]
    refine .bind .get fun conf => ?_
    dsimp only
    split
    · exact .ite (.bind (.setValue _ _) fun _ => ih _) (ih _)
    · exact .bind (.append _ _ _ _) fun _ => ih _

/-- Replacing a section is composed. -/
lemma Composed.replaceBy (target : NodeId) (source : Subtree) :
    Composed (replaceBy target source) :=
  .bind (.clear _) fun _ => .bind (.setValue _ _) fun _ => .copyContent _ _

section

variable (process : Host) (rules : Rules) (source : Configuration)

mutual

/-- Merging a section is composed, whatever its policy is. -/
lemma Composed.mergeSection (target : NodeId) :
    ∀ t : Subtree, Composed (mergeSection process rules source target t)
  | .mk id name value attributes children => by
    rw [Edit.mergeSection]
    refine .bind (.look _) fun policy => ?_
    cases policy with
    | all =>
      exact .bind (.mergeValue _ _) fun _ => .bind (.mergeAttributes _ _ _) fun _ =>
        Composed.mergeSections target children
    | attributes => exact .bind (.mergeValue _ _) fun _ => .mergeAttributes _ _ _
    | sections => exact Composed.mergeSections target children
    | replace => exact .replaceBy _ _
    | stop => exact .pure ()
    | fail => exact .look _

/-- Merging child sections is composed. -/
lemma Composed.mergeSections (target : NodeId) :
    ∀ ts : List Subtree, Composed (mergeSections process rules source target ts)
  | [] => .pure ()
  | t :: ts => by
    rw [Edit.mergeSections]
    refine .bind (.look _) fun paired => ?_
    cases paired with
    | some id =>
      exact .bind (Composed.mergeSection id t) fun _ => Composed.mergeSections target ts
    | none => exact .bind (.copySubtree target t) fun _ => Composed.mergeSections target ts

end

/-- Overriding a section is composed. -/
lemma Composed.overrideSection (target : NodeId) (node : Option NodeId) :
    Composed (overrideSection process rules source target node) :=
  .bind (.look _) fun _ => .bind (.look _) fun _ => .mergeSection process rules source target _

/-- Overriding a configuration is composed. -/
lemma Composed.overrideBy : Composed (overrideBy process rules source) :=
  .overrideSection process rules source _ _

end

/-! ## Changes -/

/-- Copying attributes makes changes only. -/
lemma Makes.copyAttributes (target : NodeId) (attributes : List Attribute) :
    Makes Change (Edit.copyAttributes target attributes) :=
  (Composed.copyAttributes target attributes).makes

/-- Copying a tree makes changes only. -/
lemma Makes.copySubtree (parent : NodeId) (t : Subtree) :
    Makes Change (Edit.copySubtree parent t) := (Composed.copySubtree parent t).makes

/-- Copying trees makes changes only. -/
lemma Makes.copySubtrees (parent : NodeId) (ts : List Subtree) :
    Makes Change (Edit.copySubtrees parent ts) := (Composed.copySubtrees parent ts).makes

/-- Copying the content of a section makes changes only. -/
lemma Makes.copyContent (target : NodeId) (source : Subtree) :
    Makes Change (Edit.copyContent target source) := (Composed.copyContent target source).makes

/-- Importing a node makes changes only. -/
lemma Makes.importNode (parent : NodeId) (other : Configuration) (node : NodeId) :
    Makes Change (Edit.importNode parent other node) :=
  (Composed.importNode parent other node).makes

/-- Importing a root makes changes only. -/
lemma Makes.importRoot (other : Configuration) : Makes Change (Edit.importRoot other) :=
  (Composed.importRoot other).makes

/-- Merging a value makes changes only. -/
lemma Makes.mergeValue (target : NodeId) (value : Option String) :
    Makes Change (Edit.mergeValue target value) := (Composed.mergeValue target value).makes

/-- Merging attributes makes changes only. -/
lemma Makes.mergeAttributes (target : NodeId) (seen : List String) (attributes : List Attribute) :
    Makes Change (Edit.mergeAttributes target seen attributes) :=
  (Composed.mergeAttributes target seen attributes).makes

section

variable (process : Host) (rules : Rules) (source : Configuration)

/-- Merging a section makes changes only. -/
lemma Makes.mergeSection (target : NodeId) (t : Subtree) :
    Makes Change (Edit.mergeSection process rules source target t) :=
  (Composed.mergeSection process rules source target t).makes

/-- Merging child sections makes changes only. -/
lemma Makes.mergeSections (target : NodeId) (ts : List Subtree) :
    Makes Change (Edit.mergeSections process rules source target ts) :=
  (Composed.mergeSections process rules source target ts).makes

/-- Overriding a section makes changes only. -/
lemma Makes.overrideSection (target : NodeId) (node : Option NodeId) :
    Makes Change (Edit.overrideSection process rules source target node) :=
  (Composed.overrideSection process rules source target node).makes

/-- Overriding a configuration makes changes only. -/
lemma Makes.overrideBy : Makes Change (Edit.overrideBy process rules source) :=
  (Composed.overrideBy process rules source).makes

end

end ConfTree.Edit
