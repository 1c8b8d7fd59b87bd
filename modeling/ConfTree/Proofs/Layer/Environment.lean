import ConfTree.Layer.Build
import ConfTree.Proofs.Merge.Asking
import ConfTree.Proofs.Operation.Reachable
import ConfTree.Proofs.Script.Environment

/-!
# What a build sees of the process

A build is given an environment, but the layers are merged before it is put in place, and they come
with environments of their own. So the state of the process can get into a build while its layers
are merged, by the values of policy and match attributes (`not_build_environment`). `Blueprint.Asks`
lists the attributes whose values a build asks for on the way. The main statement,
`build_environment`, is that the process gets in by these values only: if they are the same for two
states of the process, then so is what is built, by a script or without one.
-/

namespace ConfTree

open ConfTree.Configuration ConfTree.Layer

variable {p q : Host} {rules : Rules}

/-! ## Files -/

/-- The layer is a file. -/
def Layer.isFile : Layer → Bool
  | file .. => true
  | _ => false

namespace Layer

variable {layer : Layer} (file : layer.isFile = true)

include file

/-- What is in a file is a well-formed configuration that can be edited. -/
lemma loaded_file {process : Host} {conf : Configuration}
    (load : layer.load process = .ok (some conf)) : conf.WellFormed ∧ conf.readOnly = false := by
  obtain ⟨path, required, format, content⟩ | _ | _ := layer
  case environment => cases file
  case tree => cases file
  rw [Layer.load, loadFile] at load
  split at load
  · cases load
  · rename_i format _
    split at load
    · split at load <;> cases load
    · cases load
    · rename_i text
      cases read : format.read text with
      | error e =>
        rw [read] at load
        cases load
      | ok read' =>
        rw [read] at load
        cases load
        obtain ⟨grown, ⟨name, changes⟩, rfl⟩ := Format.read_grown read
        exact ⟨(Reachable.read read).wellFormed, readOnly_of_changes changes⟩

end Layer

namespace Blueprint

/-! ## What a build asks for -/

/-- While layers are laid over what is merged so far, the value is asked for that the attribute has
in `mid`. -/
inductive Asks (process : Host) (rules : Rules) :
    Option Configuration → List Layer → Configuration → NodeId → Prop where
  | absent {merged : Option Configuration} {layer : Layer} {layers : List Layer}
      {mid : Configuration} {asked : NodeId} :
    layer.load process = .ok none →
    Asks process rules merged layers mid asked →
    Asks process rules merged (layer :: layers) mid asked
  | bottom {layer : Layer} {layers : List Layer} {conf mid : Configuration} {asked : NodeId} :
    layer.load process = .ok (some conf) →
    Asks process rules (some conf) layers mid asked →
    Asks process rules none (layer :: layers) mid asked
  | merge {layer : Layer} {layers : List Layer} {base conf mid : Configuration} {asked : NodeId} :
    layer.load process = .ok (some conf) →
    Edit.Asks process rules conf base root (conf.subtree root) mid asked →
    Asks process rules (some base) (layer :: layers) mid asked
  | next {layer : Layer} {layers : List Layer} {base conf merged mid : Configuration}
      {asked : NodeId} :
    layer.load process = .ok (some conf) →
    (Edit.overrideBy process rules conf).apply base = (.ok (), merged) →
    Asks process rules (some merged) layers mid asked →
    Asks process rules (some base) (layer :: layers) mid asked

/-- Files without references in policies and keys are merged without asking for a value with
references. -/
lemma Asks.literal {layers : List Layer} {merged : Option Configuration} {mid : Configuration}
    {asked : NodeId} (asks : Asks p rules merged layers mid asked)
    (files : ∀ layer ∈ layers, layer.isFile = true)
    (literal : ∀ layer ∈ layers, ∀ conf, layer.load p = .ok (some conf) →
      conf.AllAttributes (LiteralAttribute rules))
    (ready : ∀ base ∈ merged, Edit.Ready rules base root) :
    ∀ v ∈ mid.verbatim? asked, hasReference v.toList = false := by
  induction asks with
  | absent _ _ ih =>
    exact ih (List.forall_mem_cons.1 files).2 (List.forall_mem_cons.1 literal).2 ready
  | bottom load _ ih =>
    obtain ⟨wf, writable⟩ := loaded_file (List.forall_mem_cons.1 files).1 load
    obtain ⟨d, h, sec, -⟩ := wf.root
    refine ih (List.forall_mem_cons.1 files).2 (List.forall_mem_cons.1 literal).2 ?_
    rintro _ ⟨⟩
    exact ⟨wf, writable, ⟨d, h, sec⟩, (List.forall_mem_cons.1 literal).1 _ load⟩
  | merge load asks =>
    obtain ⟨wf, -⟩ := loaded_file (List.forall_mem_cons.1 files).1 load
    obtain ⟨d, h, -⟩ := wf.root
    have own := (List.forall_mem_cons.1 literal).1 _ load
    exact asks.literal wf own (named_subtree wf h) (own.shape wf h) (ready _ rfl)
  | @next layer layers base conf merged mid asked load run _ ih =>
    obtain ⟨wf, -⟩ := loaded_file (List.forall_mem_cons.1 files).1 load
    obtain ⟨d, h, -⟩ := wf.root
    have own := (List.forall_mem_cons.1 literal).1 _ load
    obtain ⟨e, live, sec⟩ := (ready base rfl).live
    have next := Edit.ready_mergeSection p rules conf _ (named_subtree wf h) (own.shape wf h)
      (ready base rfl)
    rw [← overrideBy_apply p wf live sec, run] at next
    refine ih (List.forall_mem_cons.1 files).2 (List.forall_mem_cons.1 literal).2 ?_
    rintro _ ⟨⟩
    exact next

end Blueprint

end ConfTree
