import ConfTree.Proofs.Operation.Readers
import ConfTree.Proofs.Operation.Scripts
import ConfTree.Proofs.Tree.Preservation

/-!
# Reachable configurations

`Operation` lists what can be done to a configuration, and `Reachable` says which configurations
come out of an empty one or a document when this is done in any order, with success or without. The
main statement, `reachable_coherent`, is that the parts of the arena of a reachable configuration
agree on one tree, and that whatever is done to it later, an index never comes to denote another
node.
-/

namespace ConfTree

open ConfTree.Configuration Relation

/-- Something that is done to a configuration. -/
inductive Operation where
  | addSection (parent : NodeId) (name : String) (value : Option String)
  | addAttribute (parent : NodeId) (name : String) (value : Option String)
  | setValue (id : NodeId) (value : Option String)
  | rename (id : NodeId) (name : String)
  | delete (id : NodeId)
  | clear (id : NodeId)
  | importNode (parent : NodeId) (other : Configuration) (node : NodeId)
  | importRoot (other : Configuration)
  | overrideBy (rules : Rules) (source : Configuration)
  | overrideSection (rules : Rules) (source : Configuration) (target : NodeId)
    (node : Option NodeId)
  /-- The configuration is run as a script into a result. -/
  | runScript (limits : Script.Limits) (result : Configuration)
  /-- The configuration is the result of a script. -/
  | takeResult (limits : Script.Limits) (source : Configuration)
  | freeze
  | resetModified
  | setEnvironment (environment : Environment)
  | setProvider (provider : Macro.Provider)
  | setTypeSearchPaths (paths : List String)

namespace Operation

/-- The other configurations that take part. -/
def others : Operation → List Configuration
  | importNode _ other _ => [other]
  | importRoot other => [other]
  | overrideBy _ source => [source]
  | overrideSection _ source _ _ => [source]
  | runScript _ result => [result]
  | takeResult _ source => [source]
  | _ => []

/-- The configuration that the operation leaves behind, however it ends. -/
def apply (process : Host) (conf : Configuration) : Operation → Configuration
  | addSection parent name value => ((Edit.addSection parent name value).apply conf).2
  | addAttribute parent name value => ((Edit.addAttribute parent name value).apply conf).2
  | setValue id value => ((Edit.setValue id value).apply conf).2
  | rename id name => ((Edit.rename id name).apply conf).2
  | delete id => ((Edit.delete id).apply conf).2
  | clear id => ((Edit.clear id).apply conf).2
  | importNode parent other node => ((Edit.importNode parent other node).apply conf).2
  | importRoot other => ((Edit.importRoot other).apply conf).2
  | overrideBy rules source => ((Edit.overrideBy process rules source).apply conf).2
  | overrideSection rules source target node =>
    ((Edit.overrideSection process rules source target node).apply conf).2
  | runScript limits result => (Script.execute process limits conf result).2.source
  | takeResult limits source => (Script.execute process limits source conf).2.result
  | freeze => conf.freeze
  | resetModified => conf.resetModified
  | setEnvironment environment => { conf with environment := environment }
  | setProvider provider => { conf with provider := provider }
  | setTypeSearchPaths paths => { conf with typeSearchPaths := paths }

end Operation

namespace Configuration

/-- The configuration after operations one after the other, each with the variables that the
process has at its time. -/
def operateAll (conf : Configuration) : List (Host × Operation) → Configuration
  | [] => conf
  | (process, op) :: rest => (op.apply process conf).operateAll rest

/-- The configurations that can come about. -/
inductive Reachable : Configuration → Prop where
  | withRoot (name : String) : Reachable (withRoot name)
  | read {format : Format} {text : String} {conf : Configuration} :
    format.read text = .ok conf →
    Reachable conf
  | merge {process : Host} {rules : Rules} {a b conf : Configuration} :
    Reachable a →
    Reachable b →
    merge process rules a b = .ok conf →
    Reachable conf
  | operate {conf : Configuration} (process : Host) (op : Operation) :
    Reachable conf →
    (∀ other ∈ op.others, Reachable other) →
    Reachable (op.apply process conf)

variable {conf conf' : Configuration}

/-- An empty configuration is well-formed. -/
lemma wellFormed_withRoot (name : String) : (withRoot name).WellFormed := by
  -- The arena holds the root and nothing else.
  have only : ∀ (id : Nat) d, (withRoot name).live? id = some d →
      id = Configuration.root ∧ d = ⟨(validName? name).getD defaultRootName, none, none,
        .lists #[] #[], false, false⟩ := by
    intro id d h
    have hlt := lt_size_of_live h
    have h0 : id = 0 := by
      change id < 1 at hlt
      omega
    subst h0
    exact ⟨rfl, Option.some.inj h.symm⟩
  constructor
  case root => exact ⟨_, rfl, rfl, rfl⟩
  case owned =>
    intro id d h hne
    exact absurd (only id d h).1 hne
  case listed =>
    intro p pd k id h hm
    obtain ⟨-, rfl⟩ := only p pd h
    cases k <;> cases hm
  case named =>
    intro id d h
    obtain ⟨-, rfl⟩ := only id d h
    cases hn : validName? name with
    | none => exact ⟨by decide, by decide +kernel⟩
    | some _ => exact goodName_of_validName? hn

/-- Nothing but the arena counts for a configuration to be well-formed. -/
lemma WellFormed.of_nodes_eq (wf : conf.WellFormed) (h : conf'.nodes = conf.nodes) :
    conf'.WellFormed := by
  refine wf.of_retouched (f := fun _ d => d) ?_ (fun _ _ => rfl) (fun _ _ => rfl) wf.named
    fun _ _ _ => rfl
  intro n
  rw [live?, live?, h, Option.map_id']

/-- Nothing but the arena counts for what the indices denote. -/
lemma Evolves.of_nodes_eq (h : conf'.nodes = conf.nodes) : conf.Evolves conf' := by
  intro id d hd
  exact ⟨d, by rw [h, hd], rfl, fun h => h, fun _ => rfl⟩

/-- The live nodes after it was forgotten what was modified. -/
lemma live?_resetModified (n : Nat) :
    conf.resetModified.live? n = (conf.live? n).map fun d => { d with modified := false } := by
  simp only [live?, Configuration.resetModified, Array.getElem?_map]
  cases conf.nodes[n]? with
  | none => rfl
  | some d => by_cases hd : d.deleted <;> simp [Option.filter, hd]

/-- Resetting the flags keeps a configuration well formed. -/
lemma WellFormed.resetModified (wf : conf.WellFormed) : conf.resetModified.WellFormed := by
  refine wf.of_retouched (f := fun _ d => { d with modified := false }) live?_resetModified
    (fun _ _ => rfl) (fun _ _ => rfl) wf.named ?_
  intro n d k
  cases k <;> rfl

/-- Resetting the flags is a way to evolve. -/
lemma Evolves.resetModified : conf.Evolves conf.resetModified :=
  .of_map (f := fun _ d => { d with modified := false })
    (fun n => by simp [Configuration.resetModified]) (fun _ _ => rfl) (fun _ _ h => h)
    fun _ _ _ => rfl

/-- An operation makes changes, or it keeps the arena but for the flags. -/
lemma Operation.apply_cases (process : Host) (op : Operation) (conf : Configuration) :
    ReflTransGen Change conf (op.apply process conf) ∨
      (op.apply process conf).nodes = conf.nodes ∨
      op.apply process conf = conf.resetModified := by
  cases op with
  | addSection parent name value => exact .inl (Edit.Makes.append _ _ _ _ conf)
  | addAttribute parent name value => exact .inl (Edit.Makes.append _ _ _ _ conf)
  | setValue id value => exact .inl (Edit.Makes.setValue _ _ conf)
  | rename id name => exact .inl (Edit.Makes.rename _ _ conf)
  | delete id => exact .inl (Edit.Makes.delete _ conf)
  | clear id => exact .inl (Edit.Makes.clear _ conf)
  | importNode parent other node => exact .inl (Edit.Makes.importNode _ _ _ conf)
  | importRoot other => exact .inl (Edit.Makes.importRoot _ conf)
  | overrideBy rules source => exact .inl (Edit.Makes.overrideBy _ _ _ conf)
  | overrideSection rules source target node =>
    exact .inl (Edit.Makes.overrideSection _ _ _ _ _ conf)
  | runScript limits result =>
    exact .inl ((Script.runRoot_composed process limits).makes ⟨conf, result, 0⟩).1
  | takeResult limits source =>
    exact .inl ((Script.runRoot_composed process limits).makes ⟨source, conf, 0⟩).2
  | freeze => exact .inr (.inl rfl)
  | resetModified => exact .inr (.inr rfl)
  | setEnvironment environment => exact .inr (.inl rfl)
  | setProvider provider => exact .inr (.inl rfl)
  | setTypeSearchPaths paths => exact .inr (.inl rfl)

/-- An operation keeps a configuration well-formed. -/
lemma WellFormed.operate (wf : conf.WellFormed) (process : Host) (op : Operation) :
    (op.apply process conf).WellFormed := by
  rcases Operation.apply_cases process op conf with h | h | h
  · exact wf.changes h
  · exact wf.of_nodes_eq h
  · rw [h]
    exact wf.resetModified

/-- An operation lets every index denote the node that it denoted before. -/
lemma Evolves.operate (process : Host) (op : Operation) :
    conf.Evolves (op.apply process conf) := by
  rcases Operation.apply_cases process op conf with h | h | h
  · exact .changes h
  · exact .of_nodes_eq h
  · rw [h]
    exact .resetModified

/-- Operations one after the other are a way to evolve. -/
lemma Evolves.operateAll (ops : List (Host × Operation)) :
    conf.Evolves (conf.operateAll ops) := by
  induction ops generalizing conf with
  | nil => exact .refl conf
  | cons op ops ih => exact (Evolves.operate op.1 op.2).trans ih

/-- A configuration that has grown is well-formed. -/
lemma Grown.wellFormed (h : conf.Grown) : conf.WellFormed := by
  obtain ⟨name, h⟩ := h
  exact (wellFormed_withRoot name).changes h

/-- A merge makes changes of a writable copy. -/
lemma merge_changes {process : Host} {rules : Rules} {a b : Configuration}
    (h : merge process rules a b = .ok conf) : ReflTransGen Change a.unfrozen conf := by
  unfold merge at h
  split at h
  · rename_i he
    cases h
    have := Edit.Makes.overrideBy process rules b a.unfrozen
    rw [he] at this
    exact this
  · cases h

/-- A reachable configuration is well-formed. -/
lemma Reachable.wellFormed (h : Reachable conf) : conf.WellFormed := by
  induction h with
  | withRoot name => exact wellFormed_withRoot name
  | read h =>
    obtain ⟨grown, hg, rfl⟩ := Format.read_grown h
    exact hg.wellFormed.resetModified
  | @merge _ _ a _ _ _ _ h wfa _ =>
    have wfc : a.unfrozen.WellFormed := wfa.of_nodes_eq rfl
    exact wfc.changes (merge_changes h)
  | operate process op _ _ wf _ => exact wf.operate process op

/-- Operations lead from a reachable configuration to another, if all that takes part in them is
reachable. -/
lemma Reachable.operateAll (h : Reachable conf) (ops : List (Host × Operation))
    (ho : ∀ op ∈ ops, ∀ other ∈ op.2.others, Reachable other) :
    Reachable (conf.operateAll ops) := by
  induction ops generalizing conf with
  | nil => exact h
  | cons op ops ih =>
    exact ih (.operate op.1 op.2 h (ho op List.mem_cons_self))
      fun x hx => ho x (List.mem_cons_of_mem _ hx)

/-- The parts of the arena of a reachable configuration agree on one tree, in which every node is
listed in one place, and whatever is done to it later, every index denotes the same node as
before. -/
theorem reachable_coherent (h : Reachable conf) :
    conf.WellFormed ∧
      (∀ (p q : Nat) (pd qd : NodeData) (k l : Kind) (id : NodeId),
        conf.live? p = some pd → id ∈ pd.entries k → conf.live? q = some qd → id ∈ qd.entries l →
          p = q ∧ k = l) ∧
      ∀ ops, conf.Evolves (conf.operateAll ops) := by
  refine ⟨h.wellFormed, ?_, fun ops => .operateAll ops⟩
  intro p q pd qd k l id hp hm hq hn
  exact h.wellFormed.entries_unique hp hm hq hn

/-- A section with an attribute was added and deleted, and the next edit fails. -/
theorem reachable_coherent_deleted :
    Reachable ((withRoot "base").operateAll
        [(.bare, .addSection 0 "a" none), (.bare, .addAttribute 1 "x" (some "1")),
         (.bare, .delete 1),
          (.bare, .setValue 2 none)]) ∧
      ((withRoot "base").operateAll
        [(.bare, .addSection 0 "a" none), (.bare, .addAttribute 1 "x" (some "1")),
         (.bare, .delete 1),
          (.bare, .setValue 2 none)]).WellFormed := by
  have reach := (Reachable.withRoot "base").operateAll
    [(.bare, .addSection 0 "a" none), (.bare, .addAttribute 1 "x" (some "1")), (.bare, .delete 1),
      (.bare, .setValue 2 none)] (by simp [Operation.others])
  exact ⟨reach, (reachable_coherent reach).1⟩

end Configuration

end ConfTree
