import ConfTree.Proofs.Evaluation.Outcome
import ConfTree.Proofs.Operation.Reachable

/-!
# Values, limits and cycles

With plain templates, the value of a node is its expansion if no cycle of references can be reached
and both limits allow for it, and else an error that tells why (`value?_eq_expansion`). If a cycle
can be reached there is no value, and a cycle that is reported is one of references that can be
reached (`value?_of_cycle`).
-/

namespace ConfTree.Configuration

open Relation

variable {process : Host} {conf : Configuration}

/-- The value of a node ends in one of the three ways, with all the room that there is. -/
lemma value?_ends (process : Host) (plain : conf.PlainTemplates) (id : NodeId) :
    ∃ state, Ends process conf id maxDepth (Expands process conf id) .start
      (conf.value? process id, state) := by
  have ends : Ends process conf id maxDepth (Expands process conf id) .start
      ((nodeValueWithin Eval process conf maxDepth id).apply .start) :=
    nodeValueWithin_ends plain (.singleton id) .refl (Nat.zero_le _)
  have run : (nodeValue Eval process conf id).apply .start =
      (nodeValueWithin Eval process conf maxDepth id).apply .start :=
    Eval.apply_bind_ok Eval.apply_get
  refine ⟨((nodeValue Eval process conf id).apply .start).2, ?_⟩
  rw [← run] at ends
  exact ends

/-- A node of which references lead all around a walk lies on a cycle. -/
lemma transGen_of_isChain {a : NodeId} {inner : List NodeId} {b : NodeId}
    (chain : (a :: (inner ++ [b])).IsChain (conf.Refers process)) :
    TransGen (conf.Refers process) a b := by
  induction inner generalizing a with
  | nil => exact .single (List.isChain_pair.1 chain)
  | cons m inner ih =>
    rw [List.cons_append, List.isChain_cons_cons] at chain
    exact .head chain.1 (ih chain.2)

/-- A node from which no cycle of references can be reached has a height and a weight, and its value
is its expansion exactly if neither is too large. Else the value is an error that tells of the
limit. -/
theorem value?_eq_expansion (process : Host) (plain : conf.PlainTemplates) {id : NodeId}
    (acyclic : ∀ m, conf.Reaches process id m → ¬ TransGen (conf.Refers process) m m) :
    ∃ height weight value, Expands process conf id height weight value ∧
      (∀ h w v, Expands process conf id h w v → h = height ∧ w = weight ∧ v = value) ∧
      (conf.value? process id = .ok value ↔ height ≤ 256 ∧ weight ≤ 4096) ∧
      (¬ (height ≤ 256 ∧ weight ≤ 4096) →
        ∃ place, conf.value? process id = .error (.evaluationLimit place)) := by
  obtain ⟨height, weight, value, expands⟩ := exists_expands plain acyclic
  refine ⟨height, weight, value, expands, fun h w v other => other.unique expands, ?_⟩
  obtain ⟨state, ends⟩ := value?_ends process plain id
  generalize conf.value? process id = result at ends
  cases ends with
  | value expands' low light =>
    obtain ⟨rfl, rfl, rfl⟩ := expands.unique expands'
    have fits : height ≤ 256 ∧ weight ≤ 4096 := ⟨low, (Nat.zero_add weight) ▸ light⟩
    exact ⟨⟨fun _ => fits, fun _ => rfl⟩, fun large => absurd fits large⟩
  | limit large =>
    have fails : ¬ (height ≤ 256 ∧ weight ≤ 4096) := by
      rintro ⟨low, light⟩
      have := large height weight value expands low
      simp only [EvalState.start, maxSubstitutions] at this
      omega
    exact ⟨⟨nofun, fun fits => absurd fits fails⟩, fun _ => ⟨_, rfl⟩⟩
  | cycle walk =>
    obtain ⟨m, inner, rfl, chain, reaches⟩ := walk
    exact absurd (transGen_of_isChain chain) (acyclic m reaches)

/-- Without a reference back, no cycle can be reached. -/
lemma acyclic_of_lt (forward : ∀ a b, conf.Refers process a b → b < a) (m : NodeId) :
    ¬ TransGen (conf.Refers process) m m := by
  have down : ∀ a b, TransGen (conf.Refers process) a b → b < a := by
    intro a b path
    induction path with
    | single edge => exact forward _ _ edge
    | tail _ edge ih => exact Nat.lt_trans (forward _ _ edge) ih
  exact fun cycle => Nat.lt_irrefl _ (down m m cycle)

/-- A value that goes three references deep, with an escape and a reference to nothing. -/
theorem value?_eq_expansion_sample :
    let conf := (withRoot "base").operateAll [(.bare, .addAttribute 0 "x" (some "1")),
      (.bare, .addAttribute 0 "y" (some "$($x)-$($x)")),
      (.bare, .addAttribute 0 "z" (some "<$($y)$(###)$($gone)>")),
      (.bare, .addSection 0 "s" (some "$(../$z)"))]
    conf.PlainTemplates ∧ conf.value? .bare 4 = .ok (some "<1-1$(>") ∧
    (∀ m, conf.Reaches .bare 4 m → ¬ TransGen (conf.Refers .bare) m m) ∧
    ∃ height weight value, Expands .bare conf 4 height weight value ∧
      (conf.value? .bare 4 = .ok value ↔ height ≤ 256 ∧ weight ≤ 4096) := by
  intro conf
  have plain : conf.PlainTemplates := by decide +kernel
  have forward : ∀ a < 5, ∀ b ∈ conf.referents .bare a, b < a := by decide +kernel
  have size : conf.nodes.size = 5 := by decide +kernel
  have acyclic : ∀ m, conf.Reaches .bare 4 m → ¬ TransGen (conf.Refers .bare) m m := by
    refine fun m _ => acyclic_of_lt (fun a b edge => ?_) m
    obtain ⟨d, -, -, live, -⟩ := refers_iff.1 edge
    exact forward a (size ▸ lt_size_of_live live) b edge
  refine ⟨plain, by decide +kernel, acyclic, ?_⟩
  obtain ⟨height, weight, value, expands, -, fits, -⟩ := value?_eq_expansion .bare plain acyclic
  exact ⟨height, weight, value, expands, fits⟩

/-- A node from which a cycle of references can be reached has no value, and an error that tells of
a cycle tells of one that can be reached: by its nodes' paths, each node referring to the next
one. -/
theorem value?_of_cycle (process : Host) (plain : conf.PlainTemplates) (id : NodeId) :
    (∀ m, conf.Reaches process id m → TransGen (conf.Refers process) m m →
      (∃ place, conf.value? process id = .error (.evaluationLimit place)) ∨
        ∃ paths, conf.value? process id = .error (.recursiveVariable paths)) ∧
      ∀ paths, conf.value? process id = .error (.recursiveVariable paths) →
        ∃ m inner, paths = (m :: (inner ++ [m])).map conf.rootPath ∧
          (m :: (inner ++ [m])).IsChain (conf.Refers process) ∧ conf.Reaches process id m ∧
          (ConfigError.recursiveVariable paths).message =
            "recursive variable evaluation: " ++ " -> ".intercalate paths := by
  obtain ⟨state, ends⟩ := value?_ends process plain id
  generalize conf.value? process id = result at ends
  cases ends with
  | value expands => exact ⟨fun m reaches cycle => absurd cycle (expands.acyclic reaches), nofun⟩
  | limit => exact ⟨fun _ _ _ => .inl ⟨_, rfl⟩, nofun⟩
  | cycle walk =>
    refine ⟨fun _ _ _ => .inr ⟨_, rfl⟩, ?_⟩
    rintro _ ⟨⟩
    obtain ⟨m, inner, rfl, chain, reaches⟩ := walk
    exact ⟨m, inner, rfl, chain, reaches, rfl⟩

/-- Two attributes that refer to each other, and a third one that refers to them. -/
theorem value?_of_cycle_sample :
    let conf := (withRoot "base").operateAll [(.bare, .addAttribute 0 "a" (some "$($b)")),
      (.bare, .addAttribute 0 "b" (some "x$($a)")), (.bare, .addAttribute 0 "c" (some "$($a)"))]
    conf.PlainTemplates ∧ conf.Reaches .bare 3 1 ∧ TransGen (conf.Refers .bare) 1 1 ∧
    ((∃ place, conf.value? .bare 3 = .error (.evaluationLimit place)) ∨
      ∃ paths, conf.value? .bare 3 = .error (.recursiveVariable paths)) ∧
    conf.value? .bare 3 = .error (.recursiveVariable ["/$a", "/$b", "/$a"]) := by
  intro conf
  have plain : conf.PlainTemplates := by decide +kernel
  have ca : conf.Refers .bare 3 1 := by
    change 1 ∈ conf.referents .bare 3
    decide +kernel
  have ab : conf.Refers .bare 1 2 := by
    change 2 ∈ conf.referents .bare 1
    decide +kernel
  have ba : conf.Refers .bare 2 1 := by
    change 1 ∈ conf.referents .bare 2
    decide +kernel
  have reaches : conf.Reaches .bare 3 1 := .single ca
  have cycle : TransGen (conf.Refers .bare) 1 1 := .tail (.single ab) ba
  exact ⟨plain, reaches, cycle, (value?_of_cycle .bare plain 3).1 1 reaches cycle,
    by decide +kernel⟩

end ConfTree.Configuration
