import ConfTree.Proofs.Script.Rules

/-!
# What a run adds up to

The log of a run accounts for its steps and for the sections that it adds to the result, and bounds
the depth of its blocks (`Runs.kept`). Every section that is added was visited before
(`Runs.added_le`). A run that started within its budget ends within it, or with the timeout of the
step that left it (`Runs.ends`).
-/

namespace ConfTree

/-! ## Sections of the arena -/

namespace Configuration

/-- The number of sections in the arena, deleted ones among them. -/
def sectionCount (conf : Configuration) : Nat := (conf.nodes.map NodeData.isSection).count true

variable {conf : Configuration}

/-- A change that keeps a node's kind keeps the number of sections. -/
lemma sectionCount_modifyNode {f : NodeData → NodeData} (id : NodeId)
    (kept : ∀ d, (f d).isSection = d.isSection) :
    (conf.modifyNode id f).sectionCount = conf.sectionCount := by
  refine congrArg (Array.count true) (Array.ext (by simp [modifyNode]) fun i h h' => ?_)
  simp only [modifyNode, Array.getElem_map, Array.getElem_modify]
  split
  · exact kept _
  · rfl

/-- Marking nodes as deleted keeps the number of sections. -/
lemma sectionCount_markDeleted (ids : List NodeId) :
    (conf.markDeleted ids).sectionCount = conf.sectionCount := by
  induction ids generalizing conf with
  | nil => rfl
  | cons id ids ih =>
    have first : (conf.modifyNode id fun d =>
        { d with deleted := true, parent := none }).sectionCount = conf.sectionCount :=
      sectionCount_modifyNode id fun _ => rfl
    exact ih.trans first

/-- Emptying a node keeps the number of sections. -/
lemma sectionCount_emptyNode (id : NodeId) :
    (conf.emptyNode id).sectionCount = conf.sectionCount := by
  rw [emptyNode, sectionCount_modifyNode id, sectionCount_markDeleted]
  intro d
  unfold NodeData.isSection
  cases d.content <;> rfl

/-- A new section is one more. -/
lemma sectionCount_addNode (kind : Kind) (parent : NodeId) (name : String) (value : Option String) :
    (conf.addNode kind parent name value).sectionCount =
      conf.sectionCount + if kind = .sectionKind then 1 else 0 := by
  rw [addNode, sectionCount_modifyNode parent]
  · cases kind <;> simp [sectionCount, NodeData.isSection, Kind.freshContent]
  · intro d
    unfold NodeData.isSection
    cases d.content <;> cases kind <;> rfl

end Configuration

open ConfTree.Configuration

/-- Appending a node to a section adds one section, or none. -/
lemma Edit.sectionCount_append {kind : Kind} {parent : NodeId} {name : String}
    {value : Option String} {conf conf' : Configuration} {out : Except ConfigError NodeId}
    (h : (Edit.append kind parent name value).apply conf = (out, conf')) :
    conf'.sectionCount =
      conf.sectionCount + if kind = .sectionKind ∧ out.isOk then 1 else 0 := by
  rw [Edit.append] at h
  generalize hcheck : (fun conf : Configuration => do
      conf.checkWritable
      let name ← Configuration.requireName name
      let _ ← conf.requireSection parent
      return name) = check at h
  cases hc : check conf with
  | ok name' =>
    rw [apply_checked_ok hc] at h
    cases h
    rw [sectionCount_addNode]
    simp [Except.isOk, Except.toBool]
  | error e =>
    rw [apply_checked_error hc] at h
    cases h
    simp [Except.isOk, Except.toBool]

namespace Script

variable {process : Host} {limits : Limits}

/-- Appending attributes keeps the number of sections. -/
lemma keeps_appendAttributes {n : Nat} (target : NodeId)
    (attributes : List (String × Option String)) :
    Edit.Keeps (fun conf => conf.sectionCount = n) (appendAttributes target attributes)
      fun _ => True := by
  induction attributes with
  | nil => exact .pure trivial
  | cons a attributes ih =>
    refine .bind (Q := fun _ => True) (.checked fun conf name inv _ => ⟨?_, trivial⟩) fun _ _ => ih
    exact (sectionCount_addNode _ _ _ _).trans inv

/-- However it ends, appending attributes keeps the number of sections. -/
lemma sectionCount_appendAttributes {target : NodeId} {attributes : List (String × Option String)}
    {conf conf' : Configuration} {out : Except ConfigError Unit}
    (h : (appendAttributes target attributes).apply conf = (out, conf')) :
    conf'.sectionCount = conf.sectionCount := by
  have kept := (keeps_appendAttributes target attributes conf rfl).1
  rw [h] at kept
  exact kept

/-- The header of the root adds no section. -/
lemma sectionCount_prepare {header : Header} {conf conf' : Configuration}
    {out : Except ConfigError Unit} (h : (prepare header).apply conf = (out, conf')) :
    conf'.sectionCount = conf.sectionCount := by
  have keeps : Edit.Keeps (fun c => c.sectionCount = conf.sectionCount) (prepare header)
      fun _ => True := by
    refine .bind (Q := fun _ => True) (.checked fun c _ inv _ => ⟨?_, trivial⟩) fun _ _ =>
      .bind (Q := fun _ => True) (.checked fun c name inv _ => ⟨?_, trivial⟩) fun _ _ =>
      .bind (Q := fun _ => True) (.checked fun c _ inv _ => ⟨?_, trivial⟩) fun _ _ =>
      keeps_appendAttributes _ _
    · exact (sectionCount_emptyNode root).trans inv
    · have same : (c.replaceName root name).sectionCount = c.sectionCount :=
        sectionCount_modifyNode root fun _ => rfl
      exact same.trans inv
    · have same : (c.replaceValue root header.value).sectionCount = c.sectionCount :=
        sectionCount_modifyNode root fun _ => rfl
      exact same.trans inv
  have kept := (keeps conf rfl).1
  rw [h] at kept
  exact kept

/-- A value is set without a change of what values are evaluated by. -/
lemma settings_setValue {id : NodeId} {value : Option String} {conf conf' : Configuration}
    {out : Except ConfigError Unit} (h : (Edit.setValue id value).apply conf = (out, conf')) :
    conf'.provider = conf.provider ∧ conf'.environment = conf.environment := by
  have keeps : Edit.Keeps
      (fun c => c.provider = conf.provider ∧ c.environment = conf.environment)
      (Edit.setValue id value) fun _ => True := .checked fun c _ inv _ => ⟨inv, trivial⟩
  have kept := (keeps conf ⟨rfl, rfl⟩).1
  rw [h] at kept
  exact kept

/-! ## Logs -/

/-- The log accounts for the way from one state to another. -/
structure Kept (limits : Limits) (p : Progress) (log : List Event) (p' : Progress) : Prop where
  steps : p'.steps = p.steps + log.countP Event.takesStep
  sections : p'.result.sectionCount = p.result.sectionCount + log.countP Event.addsSection
  provider : p'.source.provider = p.source.provider
  environment : p'.source.environment = p.source.environment
  depth : ∀ d, .block d ∈ log → d ≤ limits.depth

namespace Kept

variable {p p' p'' : Progress} {log log' : List Event}

/-- Nothing is accounted for where nothing is done. -/
lemma refl (p : Progress) : Kept limits p [] p := ⟨rfl, rfl, rfl, rfl, nofun⟩

/-- One part of a run after the other. -/
lemma append (h : Kept limits p log p') (h' : Kept limits p' log' p'') :
    Kept limits p (log ++ log') p'' where
  steps := by rw [h'.steps, h.steps, List.countP_append, Nat.add_assoc]
  sections := by rw [h'.sections, h.sections, List.countP_append, Nat.add_assoc]
  provider := h'.provider.trans h.provider
  environment := h'.environment.trans h.environment
  depth d member := by
    obtain front | back := List.mem_append.1 member
    · exact h.depth d front
    · exact h'.depth d back

/-- A visit takes one step. -/
lemma visit (p : Progress) (id : NodeId) : Kept limits p [.visit id] p.tick := by
  refine ⟨rfl, rfl, rfl, rfl, fun d member => ?_⟩
  cases List.mem_singleton.1 member

/-- A round of a loop takes one step. -/
lemma round (p : Progress) (id : NodeId) : Kept limits p [.round id] p.tick := by
  refine ⟨rfl, rfl, rfl, rfl, fun d member => ?_⟩
  cases List.mem_singleton.1 member

/-- A block that is not too deep may be run. -/
lemma block {depth : Nat} (p : Progress) (h : depth ≤ limits.depth) :
    Kept limits p [.block depth] p := by
  refine ⟨rfl, rfl, rfl, rfl, fun d member => ?_⟩
  cases List.mem_singleton.1 member
  exact h

/-- A section that is added is accounted for. -/
lemma added {p : Progress} {result : Configuration} (id : NodeId)
    (h : result.sectionCount = p.result.sectionCount + 1) :
    Kept limits p [.added id] { p with result := result } := by
  refine ⟨rfl, h, rfl, rfl, fun d member => ?_⟩
  cases List.mem_singleton.1 member

/-- Changes of the result that add no section are not in the log. -/
lemma result {p : Progress} {result : Configuration}
    (h : result.sectionCount = p.result.sectionCount) :
    Kept limits p [] { p with result := result } := ⟨rfl, h, rfl, rfl, nofun⟩

/-- Changes of the values of the script are not in the log. -/
lemma source {p : Progress} {source : Configuration}
    (h : source.provider = p.source.provider ∧ source.environment = p.source.environment) :
    Kept limits p [] { p with source := source } := ⟨rfl, rfl, h.1, h.2, nofun⟩

end Kept

/-- The log of a task accounts for its steps, for the sections that it adds and for the depth of its
blocks. -/
lemma Runs.kept {depth : Nat} {task : Task} {p p' : Progress} {log : List Event} {out : Outcome}
    (h : Runs process limits depth task p log out p') : Kept limits p log p' := by
  induction h with
  | tooDeep | visited => exact .refl _
  | block shallow _ ih => exact (Kept.block _ shallow).append ih
  | halted _ ih => exact ih
  | next _ _ ih ih' => exact ih.append ih'
  | visitSpent | gone | unknown => exact .visit _ _
  | control _ _ _ _ ih | ordinary _ _ _ _ _ ih => exact (Kept.visit _ _).append ih
  | noFlag | skipped | noHeader => exact .refl _
  | refused _ _ add => exact .result (Edit.sectionCount_append add)
  | noAttributes _ _ add attributes =>
    exact .added _ ((sectionCount_appendAttributes attributes).trans (Edit.sectionCount_append add))
  | copied _ _ add attributes _ ih =>
    have added := (sectionCount_appendAttributes attributes).trans (Edit.sectionCount_append add)
    exact (Kept.added _ added).append ih
  | noCondition | notTaken | orphan | done | noAssignment | noCallee => exact .refl _
  | taken _ _ ih | otherwise _ ih | loop _ ih | call _ _ ih => exact ih
  | assign _ set => exact .source (settings_setValue set)
  | noLoopCondition | roundsEnd => exact .refl _
  | roundSpent => exact .round _ _
  | broken _ _ _ ih => exact (Kept.round _ _).append ih
  | round _ _ _ _ ih ih' => exact (Kept.round _ _).append (ih.append ih')

/-- The steps that a task may have taken before it begins: a copy is begun by a visit. -/
def Task.paid : Task → Nat
  | .copy _ _ => 1
  | _ => 0

/-- Every section that is added was visited in its own step. -/
lemma Runs.added_le {depth : Nat} {task : Task} {p p' : Progress} {log : List Event} {out : Outcome}
    (h : Runs process limits depth task p log out p') :
    log.countP Event.addsSection ≤ log.countP Event.takesStep + task.paid := by
  induction h with
  | block _ _ ih | control _ _ _ _ ih | ordinary _ _ _ _ _ ih | copied _ _ _ _ _ ih
  | broken _ _ _ ih =>
    simp only [List.countP_cons, Event.addsSection, Event.takesStep, Task.paid, if_true, if_false,
      Bool.false_eq_true] at ih ⊢
    omega
  | halted _ ih | taken _ _ ih | otherwise _ ih | loop _ ih | call _ _ ih => exact ih
  | next _ _ ih ih' | round _ _ _ _ ih ih' =>
    simp only [List.countP_cons, List.countP_append, Event.addsSection, Event.takesStep,
      Task.paid, if_true, if_false, Bool.false_eq_true] at ih ih' ⊢
    omega
  | noAttributes => exact Nat.le_refl 1
  | _ => exact Nat.zero_le _

/-- A run that started within its budget ends within it, or with the timeout of the first step
beyond it. -/
lemma Runs.ends {depth : Nat} {task : Task} {p p' : Progress} {log : List Event} {out : Outcome}
    (h : Runs process limits depth task p log out p') (start : p.steps ≤ limits.steps) :
    p'.steps ≤ limits.steps ∨
      p'.steps = limits.steps + 1 ∧ out = .error (.fails (.scriptTimeout (limits.steps + 1))) := by
  have spent : ∀ {q : Progress}, q.steps ≤ limits.steps → limits.steps < q.steps + 1 →
      q.steps = limits.steps := fun start out => by omega
  induction h with
  | tooDeep | visited | noFlag | skipped | noHeader | refused | noAttributes => exact .inl start
  | noCondition | notTaken | orphan | done | noAssignment | assign | noCallee => exact .inl start
  | noLoopCondition | roundsEnd => exact .inl start
  | gone within | unknown within => exact .inl within
  | visitSpent out | roundSpent _ out =>
    have eq := spent start out
    exact .inr ⟨congrArg (· + 1) eq, by rw [eq]⟩
  | block _ _ ih | halted _ ih | otherwise _ ih | loop _ ih | call _ _ ih => exact ih start
  | copied _ _ _ _ _ ih => exact ih start
  | control within _ _ _ ih | ordinary within _ _ _ _ ih | broken _ within _ ih => exact ih within
  | taken _ _ ih =>
    obtain within | ⟨steps, rfl⟩ := ih start
    · exact .inl within
    · exact .inr ⟨steps, rfl⟩
  | next _ _ ih ih' =>
    obtain within | ⟨-, timeout⟩ := ih start
    · exact ih' within
    · cases timeout
  | round _ within _ _ ih ih' =>
    obtain within | ⟨-, timeout⟩ := ih within
    · exact ih' within
    · cases timeout

end Script

end ConfTree
