import ConfTree.Proofs.Evaluation.Plain
import ConfTree.Proofs.Script.Copying

/-!
# What scripts leave behind

Whatever instructions a script has, what a run of it leaves behind is within the limits of the run:
it has a section for each one that was added, each of which took a step, and it nests no deeper than
the blocks did (`Runs.output`). No section of it has the attribute of sections that are for scripts
only. So the result, run as a script, is copied within the same limits, and if it has no references
and no reserved names the copy is the same (`execute_output`).
-/

namespace ConfTree.Script

open ConfTree.Configuration

variable {process : Host} {limits : Limits}

/-! ## The output of a run -/

/-- The section of the result that the task appends to. -/
def Task.target : Task → NodeId
  | .block _ target => target
  | .visits _ _ target => target
  | .visit _ _ target => target
  | .copy _ target => target
  | .act _ _ _ target => target
  | .rounds _ target => target

/-- No attribute in the section is that of sections that are for scripts only. -/
abbrev Unmarked (s : Shape) : Prop :=
  s.AllAttributes fun a => Text.sameName a.1 scriptOnly = false

/-- Sections that a task with such a log appends in a block of such a depth. -/
structure Output (limits : Limits) (depth : Nat) (log : List Event) (cs : List Shape) : Prop where
  added : (Shape.sectionsOf cs).length = log.countP Event.addsSection
  shallow : Shape.heights cs ≤ limits.depth - depth
  unmarked : ∀ c ∈ cs, Unmarked c

namespace Output

variable {depth : Nat} {log log' : List Event} {cs xs : List Shape}

/-- Nothing is put out to begin with. -/
lemma nil : Output limits depth [] [] := ⟨rfl, Nat.zero_le _, nofun⟩

/-- Events that add no section leave no output. -/
lemma cons {e : Event} (h : Output limits depth log cs) (other : e.addsSection = false) :
    Output limits depth (e :: log) cs :=
  ⟨h.added.trans (List.countP_cons_of_neg (by simp [other])).symm, h.shallow, h.unmarked⟩

/-- What is put out comes behind what was put out before. -/
lemma append (h : Output limits depth log cs) (next : Output limits depth log' xs) :
    Output limits depth (log ++ log') (cs ++ xs) where
  added := by
    rw [Shape.sectionsOf_append, List.length_append, h.added, next.added, List.countP_append]
  shallow := by
    rw [Shape.heights_append]
    exact max_le h.shallow next.shallow
  unmarked c hc := by
    rcases List.mem_append.1 hc with hc | hc
    · exact h.unmarked c hc
    · exact next.unmarked c hc

/-- What a block appends is shallow enough for the block that it stands in. -/
lemma outward (h : Output limits (depth + 1) log cs) : Output limits depth log cs :=
  ⟨h.added, h.shallow.trans (by omega), h.unmarked⟩

/-- A section that is added and filled by a block is one level deeper than the block. -/
lemma copied (h : Output limits (depth + 1) log cs) (deep : depth + 1 ≤ limits.depth)
    (id : NodeId) (name : String) (value : Option String)
    {attributes : List (String × Option String)}
    (unmarked : ∀ a ∈ attributes, Text.sameName a.1 scriptOnly = false) :
    Output limits depth (.added id :: log) [.mk name value attributes cs] where
  added := by
    rw [Shape.sectionsOf, Shape.sections, Shape.sectionsOf, List.append_nil, List.length_cons,
      h.added, List.countP_cons_of_pos rfl]
  shallow := by
    have below := h.shallow
    rw [Shape.heights, Shape.heights, Shape.height]
    omega
  unmarked c hc := by
    rw [List.mem_singleton.1 hc]
    exact Shape.allAttributes_iff.2 ⟨unmarked, h.unmarked⟩

end Output

/-- A block that comes to a good end is not too deep. -/
lemma Runs.block_le {depth : Nat} {id target : NodeId} {p p' : Progress} {log : List Event}
    {out : Outcome} (h : Runs process limits depth (.block id target) p log out p')
    (ended : out.isOk = true) : depth ≤ limits.depth := by
  cases h with
  | tooDeep => cases ended
  | block shallow => exact shallow

/-- Setting a value keeps a script well-formed. -/
lemma wellFormed_setValue {conf conf' : Configuration} {id : NodeId} {value : Option String}
    {out : Except ConfigError Unit} (wf : conf.WellFormed)
    (h : (Edit.setValue id value).apply conf = (out, conf')) : conf'.WellFormed := by
  have changes := Edit.Makes.setValue id value conf
  rw [h] at changes
  exact wf.changes changes

/-- A task that comes to a good end appends an output to its target, and the script stays
well-formed. -/
lemma Runs.output {depth : Nat} {task : Task} {p p' : Progress} {log : List Event} {out : Outcome}
    (h : Runs process limits depth task p log out p') (ended : out.isOk = true)
    (wfs : p.source.WellFormed) (opened : Open p.result task.target) :
    p'.source.WellFormed ∧
      ∃ cs, Appends task.target p.result p'.result cs ∧ Output limits depth log cs := by
  -- The outputs of parts of the run stand one behind the other. Only a copy goes down a level, and
  -- its block allows for that.
  induction h with
  -- Blocks
  | tooDeep => cases ended
  | block _ _ ih =>
    obtain ⟨wfs', cs, appends, output⟩ := ih ended wfs opened
    exact ⟨wfs', cs, appends, output.cons rfl⟩
  | visited => exact ⟨wfs, [], .refl opened, .nil⟩
  | halted => cases ended
  | next _ _ ih ih' =>
    obtain ⟨wfs', cs, appends, output⟩ := ih rfl wfs opened
    obtain ⟨wfs'', xs, appends', output'⟩ := ih' ended wfs' (opened.of_confined appends.confined)
    exact ⟨wfs'', cs ++ xs, appends.trans opened appends', output.append output'⟩
  -- Visits
  | visitSpent | unknown => cases ended
  | gone => exact ⟨wfs, [], .refl opened, Output.nil.cons rfl⟩
  | control _ _ _ _ ih | ordinary _ _ _ _ _ ih =>
    obtain ⟨wfs', cs, appends, output⟩ := ih ended wfs opened
    exact ⟨wfs', cs, appends, output.cons rfl⟩
  -- Copies
  | noFlag | noHeader | refused | noAttributes => cases ended
  | skipped => exact ⟨wfs, [], .refl opened, .nil⟩
  | copied _ head add attributes body ih =>
    have good := headerOf_attributes wfs head
    obtain ⟨inner, fill⟩ := addSection_ok opened (fun a ha => (good a ha).1) add attributes
    obtain ⟨wfs', cs, appends, output⟩ := ih ended wfs inner
    exact ⟨wfs', _, fill appends,
      output.copied (body.block_le ended) _ _ _ fun a ha => (good a ha).2⟩
  -- Instructions
  | noCondition | orphan | noAssignment | noCallee => cases ended
  | notTaken | done => exact ⟨wfs, [], .refl opened, .nil⟩
  | @taken _ _ _ _ _ _ out _ _ _ ih =>
    have ended' : out.isOk = true := by
      cases out with
      | ok => rfl
      | error => cases ended
    obtain ⟨wfs', cs, appends, output⟩ := ih ended' wfs opened
    exact ⟨wfs', cs, appends, output.outward⟩
  | otherwise _ ih | call _ _ ih =>
    obtain ⟨wfs', cs, appends, output⟩ := ih ended wfs opened
    exact ⟨wfs', cs, appends, output.outward⟩
  | loop _ ih => exact ih ended wfs opened
  | assign _ set => exact ⟨wellFormed_setValue wfs set, [], .refl opened, .nil⟩
  -- Loops
  | noLoopCondition | roundSpent | broken => cases ended
  | roundsEnd => exact ⟨wfs, [], .refl opened, .nil⟩
  | round _ _ _ _ ih ih' =>
    obtain ⟨wfs', cs, appends, output⟩ := ih rfl wfs opened
    obtain ⟨wfs'', xs, appends', output'⟩ := ih' ended wfs' (opened.of_confined appends.confined)
    exact ⟨wfs'', cs ++ xs, appends.trans opened appends',
      (output.outward.append output').cons rfl⟩

/-- The result of a whole run is within the limits of the run, and unmarked. -/
lemma Executes.output {source result : Configuration} {log : List Event} {p : Progress}
    (h : Executes process limits source result log (.ok ()) p) (wfs : source.WellFormed)
    (wf : result.WellFormed) :
    p.result.WellFormed ∧ Unmarked (p.result.shape root) ∧
      (p.result.shape root).descendants.length ≤ limits.steps ∧
      (p.result.shape root).height ≤ limits.depth := by
  have steps := h.kept.steps
  have within := h.within (by nofun)
  have added := h.added_le
  cases h with
  | run head prepared run =>
    obtain ⟨writable, named⟩ := prepare_ok wf prepared
    have good := headerOf_attributes wfs head
    obtain ⟨conf', prepared', opened, bare⟩ :=
      prepare_spec wf writable named fun a ha => (good a ha).1
    rw [prepared] at prepared'
    cases prepared'
    obtain ⟨-, cs, appends, output⟩ := run.output rfl wfs opened
    have shape := appends.shape
    rw [Task.target, bare, Shape.extend] at shape
    rw [shape]
    refine ⟨appends.confined.wellFormed, ?_, ?_, ?_⟩
    · refine Shape.allAttributes_iff.2 ⟨fun a ha => ?_, output.unmarked⟩
      rw [Shape.attributes, List.append_nil] at ha
      exact (good a ha).2
    · have size : (Shape.sectionsOf cs).length = _ := output.added
      show (Shape.sectionsOf cs).length ≤ limits.steps
      omega
    · exact output.shallow

/-! ## Copies of what needs no evaluation -/

/-- The section holds no reference: not in its name, in its value or in the value of an
attribute. -/
def Plain (s : Shape) : Prop :=
  hasReference s.name.toList = false ∧ (∀ v ∈ s.value, hasReference v.toList = false) ∧
    ∀ a ∈ s.attributes, ∀ v ∈ a.2, hasReference v.toList = false

instance (s : Shape) : Decidable (Plain s) := by
  unfold Plain
  infer_instance

/-- The section is written as it will be copied. -/
structure Settled (s : Shape) : Prop where
  plain : Plain s
  unmarked : ∀ a ∈ s.attributes, Text.sameName a.1 scriptOnly = false

section

variable {conf : Configuration} {t : Subtree} (settled : Settled t.shape) (wf : conf.WellFormed)
  (taken : TakenFrom conf t) (process : Host)

include settled wf taken

/-- A settled section has its verbatim value. -/
lemma Settled.value? : conf.value? process t.id = .ok t.value := by
  have literal : ∀ raw ∈ conf.verbatim? t.id, hasReference raw.toList = false := by
    rw [taken.verbatim? wf]
    cases t
    exact settled.plain.2.1
  rw [value?_literal literal, taken.verbatim? wf]

/-- The attributes of a settled section have their verbatim values. -/
lemma Settled.attribute_value? :
    ∀ a ∈ t.attributes, conf.value? process a.id = .ok a.value := by
  intro a ha
  have verbatim : conf.verbatim? a.id = a.value := by
    rw [← taken.map_attributesOf wf] at ha
    obtain ⟨c, -, rfl⟩ := List.mem_map.1 ha
    rfl
  have literal : ∀ raw ∈ conf.verbatim? a.id, hasReference raw.toList = false := by
    rw [verbatim]
    refine settled.plain.2.2 a.pair ?_
    rw [t.attributes_shape]
    exact List.mem_map_of_mem ha
  rw [value?_literal literal, verbatim]

/-- All attributes of a settled section are copied as they are. -/
lemma Settled.evaluatedAttributes :
    evaluatedAttributes process conf t.attributes = .ok t.shape.attributes := by
  have unmarked := settled.unmarked
  have values := settled.attribute_value? wf taken process
  rw [t.attributes_shape] at unmarked ⊢
  generalize t.attributes = attributes at unmarked values
  induction attributes with
  | nil => rfl
  | cons a attributes ih =>
    have first : Text.sameName a.name scriptOnly = false := unmarked a.pair List.mem_cons_self
    rw [evaluatedAttributes_cons, first, values a List.mem_cons_self,
      ih (fun x hx => unmarked x (List.mem_cons_of_mem _ hx))
        fun x hx => values x (List.mem_cons_of_mem _ hx)]
    rfl

/-- A settled section is not for scripts only. -/
lemma Settled.isScriptOnly : isScriptOnly process conf t.id = .ok false :=
  isScriptOnly_of_unmarked wf taken settled.unmarked

end

mutual

/-- A section is its own evaluated copy if it is settled with all below it. -/
lemma evaluatedCopy_settled {conf : Configuration} (wf : conf.WellFormed) (process : Host)
    (context : NodeId) : ∀ {t : Subtree}, TakenFrom conf t → (∀ s ∈ t.shape.sections, Settled s) →
      evaluatedCopy process conf context t = .ok t.shape
  | .mk id name value attributes children, taken, settled => by
    have own := settled _ (Shape.mem_sections_self _)
    have below : ∀ t ∈ children, TakenFrom conf t ∧ ∀ s ∈ t.shape.sections, Settled s :=
      fun t ht => ⟨taken.child wf t ht,
        fun s hs => settled s (Shape.mem_sections_of_child (Subtree.shape_mem_children ht) hs)⟩
    have inner := evaluatedCopies_settled wf process id below
    have name' : conf.evaluate process (some context) name = .ok name :=
      conf.evaluate_literal process _ own.plain.1
    have trimmed : Text.trim name = name := (taken.named wf).1.2
    rw [evaluatedCopy_eq, own.value? wf taken, own.evaluatedAttributes wf taken]
    show (do
      let name ← conf.evaluate process (some context) name
      let children ← evaluatedCopies process conf id children
      return Shape.mk (Text.trim name) value (attributes.map Attribute.pair) children) = _
    rw [name', inner, ok_bind, trimmed]
    rfl

/-- Settled trees are evaluated to themselves. -/
lemma evaluatedCopies_settled {conf : Configuration} (wf : conf.WellFormed) (process : Host)
    (parent : NodeId) : ∀ {ts : List Subtree},
      (∀ t ∈ ts, TakenFrom conf t ∧ ∀ s ∈ t.shape.sections, Settled s) →
        evaluatedCopies process conf parent ts = .ok (Subtree.shapes ts)
  | [], _ => rfl
  | t :: ts, h => by
    obtain ⟨taken, settled⟩ := h t List.mem_cons_self
    rw [evaluatedCopies, (settled _ (Shape.mem_sections_self _)).isScriptOnly wf taken process,
      ok_bind, if_neg (by decide), evaluatedCopy_settled wf process parent taken settled,
      evaluatedCopies_settled wf process parent fun x hx => h x (List.mem_cons_of_mem _ hx)]
    rfl

end

/-! ## Runs of results -/

mutual

/-- No more sections are visited than lie below the section. -/
lemma length_visitedBy_copiedFrom_le (conf : Configuration) (depth : Nat) (context : NodeId) :
    ∀ t : Subtree, (visitedBy (copiedFrom process conf depth context t)).length ≤
      t.shape.descendants.length
  | .mk id name value attributes children => by
    have below := length_visitedBy_copiedAmong_le conf (depth + 1) id children
    rw [copiedFrom, visitedBy_cons, List.length_append]
    exact below

/-- Each section that is copied or visited is one of the trees. -/
lemma length_visitedBy_copiedAmong_le (conf : Configuration) (depth : Nat) (parent : NodeId) :
    ∀ ts : List Subtree, ts.length + (visitedBy (copiedAmong process conf depth parent ts)).length ≤
      (Shape.sectionsOf (Subtree.shapes ts)).length
  | [] => Nat.le_refl 0
  | t :: ts => by
    have first := length_visitedBy_copiedFrom_le conf depth parent t
    have rest := length_visitedBy_copiedAmong_le conf depth parent ts
    rw [Subtree.shapes, Shape.sectionsOf, List.length_append, Shape.length_sections,
      List.length_cons, copiedAmong]
    split
    · omega
    · rw [visitedBy_append, List.length_append]
      omega

end

section

variable {conf : Configuration} (wf : conf.WellFormed)

include wf

/-- What is copied of a configuration is taken from it. -/
lemma takenFrom_of_copied : ∀ p ∈ copied process conf, TakenFrom conf p.tree := by
  obtain ⟨d, live, sec, -⟩ := wf.root
  exact copiedFrom_ind (fun p taken => taken.child wf) (takenFrom_subtree live sec)

/-- A settled configuration without instructions can be copied if the limits allow for all of it. -/
lemma copyable_settled (process : Host)
    (settled : ∀ s ∈ (conf.shape root).sections, Settled s)
    (ordinary : ∀ s ∈ (conf.shape root).descendants, isReserved s.name = false)
    (steps : (conf.shape root).descendants.length ≤ limits.steps)
    (deep : (conf.shape root).height ≤ limits.depth) : Copyable process conf limits where
  ordinary := ordinary
  evaluates p hp := by
    have taken := takenFrom_of_copied wf p hp
    have own := settled _ (shape_mem_of_copied hp)
    have named : GoodName p.tree.name := (taken.named wf).name
    have literal := own.plain.1
    rw [p.tree.name_shape] at literal
    refine ⟨⟨p.tree.name, mem_toOption.2 (conf.evaluate_literal process _ literal), ?_⟩,
      isOk_iff.2 ⟨_, own.value? wf taken process⟩,
      fun a ha _ => isOk_iff.2 ⟨_, own.attribute_value? wf taken process a ha⟩⟩
    rw [named.2]
    exact named.1
  flags t ht := by
    obtain ⟨p, hp, ht⟩ := List.mem_flatMap.1 ht
    have taken := (takenFrom_of_copied wf p hp).child wf t ht
    have below : t.shape ∈ (conf.shape root).descendants :=
      Shape.mem_descendants_of_child (shape_mem_of_copied hp) (Subtree.shape_mem_children ht)
    have own := settled _ (Shape.mem_sections_of_mem_descendants below)
    exact isOk_iff.2 ⟨_, own.isScriptOnly wf taken process⟩
  steps := (length_visitedBy_copiedFrom_le conf 0 root (conf.subtree root)).trans steps
  deep p hp := by
    have bounded : p.depth + p.tree.shape.height ≤ limits.depth := by
      refine copiedFrom_ind (P := fun p => p.depth + p.tree.shape.height ≤ limits.depth)
        (fun p bounded t ht => ?_) (by rw [Nat.zero_add]; exact deep) p hp
      have lower := Shape.height_lt_of_child (Subtree.shape_mem_children ht)
      dsimp only
      omega
    omega

end

/-- What a script leaves behind is a fixed point: if the result of a run holds no references, and no
section below its root has a reserved name, then it runs as a script within the same limits into any
writable result, stays as it is, and leaves the same tree. -/
theorem execute_output (process process' : Host) {limits : Limits}
    {source result result' : Configuration} {p : Progress} (hs : Reachable source)
    (hr : Reachable result) (hr' : Reachable result') (writable : result'.readOnly = false)
    (run : execute process limits source result = (.ok (), p))
    (plain : ∀ s ∈ (p.result.shape root).sections, Plain s)
    (ordinary : ∀ s ∈ (p.result.shape root).descendants, isReserved s.name = false) :
    (execute process' limits p.result result').1 = .ok () ∧
      (execute process' limits p.result result').2.source = p.result ∧
      (execute process' limits p.result result').2.result.shape root = p.result.shape root := by
  obtain ⟨log, executes⟩ := execute_executes process limits source result
  rw [run] at executes
  obtain ⟨wf, unmarked, steps, deep⟩ := executes.output hs.wellFormed hr.wellFormed
  have settled : ∀ s ∈ (p.result.shape root).sections, Settled s :=
    fun s hs => ⟨plain s hs, unmarked s hs⟩
  obtain ⟨_, p', again, same, copy⟩ :=
    (copyable_settled wf process' settled ordinary steps deep).executes wf hr'.wellFormed writable
  obtain ⟨d, live, sec, -⟩ := wf.root
  rw [evaluatedCopy_settled wf process' root (takenFrom_subtree live sec) settled] at copy
  rw [again.execute_eq]
  exact ⟨rfl, same, (Except.ok.inj copy).symm⟩

/-- A loop that calls a section for scripts only, which nests two more. Its result takes as many
steps as it has sections below its root. -/
theorem execute_output_loop :
    let here : Host := ⟨[("HOST", "here")], .epoch⟩
    let source := (withRoot "list").operateAll
      [(.bare, .addAttribute 0 "n" (some "0")), (.bare, .addSection 0 "pair" none),
        (.bare, .addAttribute 2 "script-only" (some "true")),
        (.bare, .addSection 2 "item$(/$n)" (some "$(~HOST)")), (.bare, .addSection 4 "inner" none),
        (.bare, .addSection 0 "_loop" (some "$(/$n) < 2")),
        (.bare, .addSection 6 "_call" (some "/pair")),
        (.bare, .addSection 6 "_set" none), (.bare, .addAttribute 8 "path" (some "/$n")),
        (.bare, .addAttribute 8 "to" (some "$(/$n) + 1"))]
    let result := withRoot "first"
    let p := (execute here ⟨20, 4⟩ source result).2
    Reachable source ∧ Reachable result ∧ result.readOnly = false ∧
      (execute here ⟨20, 4⟩ source result).1 = .ok () ∧
      (∀ s ∈ (p.result.shape root).sections, Plain s) ∧
      (∀ s ∈ (p.result.shape root).descendants, isReserved s.name = false) ∧
      (execute .bare ⟨20, 4⟩ p.result result).1 = .ok () ∧
      (execute .bare ⟨20, 4⟩ p.result result).2.source = p.result ∧
      ((execute .bare ⟨20, 4⟩ p.result result).2.result.shape root).descendants.map
          (fun s => (s.name, s.value)) =
        [("item0", some "here"), ("inner", none), ("item1", some "here"), ("inner", none)] := by
  intro here source result p
  have hs : Reachable source :=
    (Reachable.withRoot "list").operateAll _ (by simp [Operation.others])
  have hr : Reachable result := .withRoot "first"
  have writable : result.readOnly = false := rfl
  have ok : (execute here ⟨20, 4⟩ source result).1 = .ok () := by decide +kernel
  have plain : ∀ s ∈ (p.result.shape root).sections, Plain s := by decide +kernel
  have ordinary : ∀ s ∈ (p.result.shape root).descendants, isReserved s.name = false := by
    decide +kernel
  have run : execute here ⟨20, 4⟩ source result = (.ok (), p) := Prod.ext ok rfl
  obtain ⟨again, same, shape⟩ :=
    execute_output here .bare hs hr hr writable run plain ordinary
  refine ⟨hs, hr, writable, ok, plain, ordinary, again, same, ?_⟩
  rw [shape]
  decide +kernel

end ConfTree.Script
