import ConfTree.Proofs.Operation.Frozen
import ConfTree.Proofs.Tree.Transplant

/-!
# Edits that fail

A primitive edit checks all that it needs before it changes anything, so if it fails, then nothing
has changed. An import goes on with its checks after its first change. In a writable configuration
only the first of them can fail, since what is listed in the other configuration is live there and
has a name that can be given: an import below a live section succeeds, and so does an import of a
root. So no edit leaves half of its work behind (`failed_edits_untouched`).
-/

namespace ConfTree

open ConfTree.Configuration

/-! ## All or nothing -/

namespace Edit

variable {α : Type} {conf : Configuration}

/-- If the edit fails on the configuration, then it leaves it as it is. -/
def AllOrNothing (edit : Edit α) (conf : Configuration) : Prop :=
  ∀ e, (edit.apply conf).1 = .error e → (edit.apply conf).2 = conf

/-- An edit that succeeds did not fail halfway. -/
lemma AllOrNothing.of_ok {edit : Edit α} {a : α} {conf' : Configuration}
    (run : edit.apply conf = (.ok a, conf')) : AllOrNothing edit conf := by
  intro e failed
  rw [run] at failed
  cases failed

/-- An edit that fails and changes nothing did not fail halfway. -/
lemma AllOrNothing.of_error {edit : Edit α} (run : ∃ e, edit.apply conf = (.error e, conf)) :
    AllOrNothing edit conf := by
  intro _ _
  obtain ⟨e, run⟩ := run
  rw [run]

/-- An edit that checks everything first does all or nothing. -/
lemma AllOrNothing.checked {β : Type} (check : Configuration → Except ConfigError β)
    (change : β → Configuration → α × Configuration) (conf : Configuration) :
    AllOrNothing (Edit.checked check change) conf := by
  cases h : check conf with
  | ok b => exact .of_ok (apply_checked_ok h)
  | error e => exact .of_error ⟨e, apply_checked_error h⟩

/-- Nothing is appended to what is not a live section. -/
lemma append_homeless {parent : Nat}
    (closed : ¬ ∃ pd, conf.live? parent = some pd ∧ pd.kind = .sectionKind) (kind : Kind)
    (name : String) (value : Option String) :
    ∃ e, (append kind parent name value).apply conf = (.error e, conf) := by
  cases outcome : ((append kind parent name value).apply conf).1 with
  | ok c => exact absurd (of_apply_append (Prod.ext outcome rfl)).2 closed
  | error e => exact ⟨e, Prod.ext outcome (AllOrNothing.checked _ _ conf e outcome)⟩

end Edit

namespace Configuration

/-- Each of the edits does all or nothing, whatever it is given. -/
structure EditsAllOrNothing (conf : Configuration) : Prop where
  addSection : ∀ parent name value, (Edit.addSection parent name value).AllOrNothing conf
  addAttribute : ∀ parent name value, (Edit.addAttribute parent name value).AllOrNothing conf
  setValue : ∀ id value, (Edit.setValue id value).AllOrNothing conf
  rename : ∀ id name, (Edit.rename id name).AllOrNothing conf
  delete : ∀ id, (Edit.delete id).AllOrNothing conf
  clear : ∀ id, (Edit.clear id).AllOrNothing conf
  importNode : ∀ parent other node, Reachable other →
    (Edit.importNode parent other node).AllOrNothing conf
  importRoot : ∀ other, Reachable other → (Edit.importRoot other).AllOrNothing conf

variable {conf other : Configuration}

/-- An import of a node fails at its first step, or not at all. -/
lemma allOrNothing_importNode (wf : conf.WellFormed) (wfo : other.WellFormed)
    (parent node : NodeId) : (Edit.importNode parent other node).AllOrNothing conf := by
  cases frozen : conf.readOnly with
  | true => exact .of_error ((refusesEdits frozen).importNode parent other node)
  | false =>
    cases hn : other.live? node with
    | none =>
      rw [Edit.importNode, hn]
      exact .of_error ⟨_, rfl⟩
    | some d =>
      by_cases open' : ∃ pd, conf.live? parent = some pd ∧ pd.kind = .sectionKind
      · obtain ⟨pd, hp, sec⟩ := open'
        obtain ⟨after, run, -⟩ := importNode_spec wf frozen wfo hp sec hn
        exact .of_ok run
      · rw [Edit.importNode, hn]
        dsimp only
        split
        · obtain ⟨_, name, value, _, _⟩ := other.subtree node
          obtain ⟨e, run⟩ := Edit.append_homeless open' .sectionKind name value
          refine .of_error ⟨e, ?_⟩
          rw [Edit.copySubtree, Edit.addSection, Edit.apply_bind, run]
        · exact .of_error (Edit.append_homeless open' _ _ _)

/-- An import of a root fails at its first step, or not at all. -/
lemma allOrNothing_importRoot (wf : conf.WellFormed) (wfo : other.WellFormed) :
    (Edit.importRoot other).AllOrNothing conf := by
  cases frozen : conf.readOnly with
  | true => exact .of_error ((refusesEdits frozen).importRoot other)
  | false =>
    obtain ⟨after, run, -⟩ := importRoot_spec wf frozen wfo
    exact .of_ok run

/-- No edit of a well-formed configuration fails halfway. -/
lemma editsAllOrNothing (wf : conf.WellFormed) : conf.EditsAllOrNothing where
  addSection _ _ _ := .checked _ _ conf
  addAttribute _ _ _ := .checked _ _ conf
  setValue _ _ := .checked _ _ conf
  rename _ _ := .checked _ _ conf
  delete _ := .checked _ _ conf
  clear _ := .checked _ _ conf
  importNode parent _ node reach := allOrNothing_importNode wf reach.wellFormed parent node
  importRoot _ reach := allOrNothing_importRoot wf reach.wellFormed

/-- An edit of a reachable configuration that fails leaves the configuration as it is. No check
after the first change of an edit can fail: a section whose entries were marked as deleted is still
live, and what a live node lists is live and has a name that can be given. -/
theorem failed_edits_untouched (reach : Reachable conf) :
    conf.EditsAllOrNothing ∧
      (∀ id d, conf.live? id = some d →
        (conf.markDeleted ((conf.preorder id).drop 1)).live? id = some d) ∧
      ∀ id d k c, conf.live? id = some d → c ∈ d.entries k →
        ∃ e, conf.live? c = some e ∧ requireName e.name = .ok e.name := by
  have wf := reach.wellFormed
  refine ⟨editsAllOrNothing wf, fun id d hd => ?_, fun id d k c hd hc => ?_⟩
  · rw [live?_markDeleted, if_neg fun hm => ((mem_drop_preorder_iff wf hd).1 hm).2 rfl, hd]
  · obtain ⟨e, he, -⟩ := wf.listed id d k c hd hc
    exact ⟨e, he, requireName_ok.2 (validName?_of_goodName (wf.named c e he))⟩

/-- A section with an attribute cannot be copied below an attribute. -/
theorem failed_edits_untouched_attribute :
    let conf := (withRoot "base").operateAll [(.bare, .addAttribute 0 "x" (some "1"))]
    let other := (withRoot "other").operateAll [(.bare, .addAttribute 0 "y" none)]
    (Edit.importNode 1 other 0).apply conf = (.error (.notASection "/$x"), conf) := by
  intro conf other
  have reach : Reachable conf :=
    (Reachable.withRoot "base").operateAll _ (by simp [Operation.others])
  have reach' : Reachable other :=
    (Reachable.withRoot "other").operateAll _ (by simp [Operation.others])
  have failed : ((Edit.importNode 1 other 0).apply conf).1 = .error (.notASection "/$x") := by
    decide +kernel
  exact Prod.ext failed ((failed_edits_untouched reach).1.importNode 1 other 0 reach' _ failed)

end Configuration

end ConfTree
