import ConfTree.Proofs.Operation.Reachable
import ConfTree.Proofs.Script.Budget
import ConfTree.Proofs.Tree.Relocation

/-!
# What the result of a script was before

A script never reads its result. Two runs of it into results of any content go side by side from the
moment when both results were emptied: they look at the same script, and they append to the same
tree, which stands at other places in the two arenas (`Alongside`). So they come to the same end
(`execute_independent`).
-/

namespace ConfTree.Configuration

/-! ## Bare trees -/

section

variable {conf conf' : Configuration} {name : String} {value : Option String}

/-- Bared trees are the same, whatever they held before. -/
lemma relocated_bared (wf : conf.WellFormed) (wf' : conf'.WellFormed)
    (writable : conf.readOnly = false) (writable' : conf'.readOnly = false)
    (good : GoodName name) (value : Option String) :
    Relocated (conf.bared name value).nodes.size (conf'.bared name value).nodes.size
      (conf.bared name value) (conf'.bared name value) := by
  obtain ⟨x, hx, name₁, value₁, bare₁, only⟩ := live?_bared wf name value
  obtain ⟨y, hy, name₂, value₂, bare₂, -⟩ := live?_bared wf' name value
  exact relocated_of_bare (wf.bared good value) (wf'.bared good value)
    (readOnly_bared.trans writable) (readOnly_bared.trans writable') hx hy (name₂.trans name₁.symm)
    (value₂.trans value₁.symm) bare₁ bare₂ only

end

/-! ## Appending to one tree in two arenas -/

section

variable {n m : Nat} {conf conf' : Configuration} {kind : Kind} {t : Nat} {name : String}
  {value : Option String}

/-- A section stays one when a node is added. -/
lemma isSection_addNode (target : conf.isSection t = true) {s : Nat}
    (h : conf.isSection s = true) : (conf.addNode kind t name value).isSection s = true := by
  obtain ⟨pd, live, sec⟩ := isSection_iff.1 target
  obtain ⟨d, hd, sec'⟩ := isSection_iff.1 h
  obtain ⟨e, he, kind', -⟩ := live?_addNode_old live sec hd
  exact isSection_iff.2 ⟨e, he, kind'.trans sec'⟩

/-- Both arenas refuse the name, or both take the node. -/
lemma Relocated.append (h : Relocated n m conf conf') (target : conf.isSection t = true)
    (kind : Kind) (name : String) (value : Option String) :
    (∃ e, (Edit.append kind t name value).apply conf = (.error e, conf) ∧
        (Edit.append kind (relocate n m t) name value).apply conf' = (.error e, conf')) ∨
      ∃ stored, Relocated n m (conf.addNode kind t stored value)
          (conf'.addNode kind (relocate n m t) stored value) ∧
        (Edit.append kind t name value).apply conf =
          (.ok conf.nodes.size, conf.addNode kind t stored value) ∧
        (Edit.append kind (relocate n m t) name value).apply conf' =
          (.ok (relocate n m conf.nodes.size),
            conf'.addNode kind (relocate n m t) stored value) := by
  obtain ⟨d, live, sec⟩ := isSection_iff.1 target
  obtain ⟨e, live', sec'⟩ := h.live_section live sec
  have open₁ : conf.checkWritable = .ok () := checkWritable_ok.2 h.writable
  have open₂ : conf'.checkWritable = .ok () := checkWritable_ok.2 h.writable'
  cases stored : requireName name with
  | error fault =>
    refine .inl ⟨fault, Edit.apply_checked_error ?_, Edit.apply_checked_error ?_⟩
    · rw [open₁, stored]
      rfl
    · rw [open₂, stored]
      rfl
  | ok good =>
    have valid := requireName_ok.1 stored
    have trimmed := (validName?_eq_some.1 valid).1
    have goodName := goodName_of_validName? valid
    refine .inr ⟨good, h.addNode live sec kind goodName value, ?_, ?_⟩
    · exact Edit.apply_checked_ok
        (appendable_iff.2 ⟨h.writable, trimmed, goodName, d, live, sec⟩)
    · rw [← h.size']
      exact Edit.apply_checked_ok
        (appendable_iff.2 ⟨h.writable', trimmed, goodName, e, live', sec'⟩)

end

end ConfTree.Configuration

namespace ConfTree.Script

open ConfTree.Configuration

variable {n m : Nat}

/-- The same attributes are taken by both arenas. -/
lemma appendAttributes_relocated {conf conf' : Configuration} (h : Relocated n m conf conf')
    {t : Nat} (target : conf.isSection t = true) (attributes : List (String × Option String)) :
    ∃ out, ∃ after after' : Configuration,
      (appendAttributes t attributes).apply conf = (out, after) ∧
      (appendAttributes (relocate n m t) attributes).apply conf' = (out, after') ∧
      Relocated n m after after' ∧
      ∀ s, conf.isSection s = true → after.isSection s = true := by
  induction attributes generalizing conf conf' with
  | nil => exact ⟨.ok (), conf, conf', rfl, rfl, h, fun _ hs => hs⟩
  | cons a attributes ih =>
    obtain ⟨name, value⟩ := a
    obtain ⟨e, refused, refused'⟩ | ⟨stored, next, added, added'⟩ :=
      h.append target .attributeKind name value
    · refine ⟨.error e, conf, conf', ?_, ?_, h, fun _ hs => hs⟩
      · rw [appendAttributes, Edit.addAttribute, Edit.apply_bind, refused]
      · rw [appendAttributes, Edit.addAttribute, Edit.apply_bind, refused']
    · obtain ⟨out, after, after', run, run', related, kept⟩ :=
        ih next (isSection_addNode target target)
      refine ⟨out, after, after', ?_, ?_, related, fun s hs => kept s (isSection_addNode target hs)⟩
      · rw [appendAttributes, Edit.addAttribute, Edit.apply_bind_ok added]
        exact run
      · rw [appendAttributes, Edit.addAttribute, Edit.apply_bind_ok added']
        exact run'

/-! ## Runs side by side -/

/-- Two runs are at the same point of one script, and their results hold the same tree. -/
structure Alongside (n m : Nat) (p q : Progress) : Prop where
  source : q.source = p.source
  steps : q.steps = p.steps
  result : Relocated n m p.result q.result

/-- Runs that were side by side come to the same end, and the sections of the result at the start
are still there. -/
structure SameEnd (n m : Nat) {α : Type} (p : Progress)
    (x y : Except (Exit ConfigError) α × Progress) : Prop where
  outcome : y.1 = x.1
  alongside : Alongside n m x.2 y.2
  kept : ∀ t, p.result.isSection t = true → x.2.result.isSection t = true

namespace SameEnd

variable {α β : Type} {p q : Progress}

/-- A result ends both runs alike. -/
lemma pure (h : Alongside n m p q) (a : α) :
    SameEnd n m p ((Pure.pure a : Run α).outcome p) ((Pure.pure a : Run α).outcome q) :=
  ⟨rfl, h, fun _ ht => ht⟩

/-- Both runs see the same script. -/
lemma compute (h : Alongside n m p q) (f : Configuration → Except (Exit ConfigError) α) :
    SameEnd n m p ((Run.compute f).outcome p) ((Run.compute f).outcome q) :=
  ⟨congrArg f h.source, h, fun _ ht => ht⟩

/-- A step is taken alike in both runs. -/
lemma tick (h : Alongside n m p q) (limit : Nat) :
    SameEnd n m p ((Run.tick limit).outcome p) ((Run.tick limit).outcome q) := by
  obtain ⟨source, result, steps⟩ := p
  obtain ⟨source', result', steps'⟩ := q
  obtain ⟨rfl, rfl, related⟩ := h
  exact ⟨rfl, ⟨rfl, rfl, related⟩, fun _ ht => ht⟩

/-- Both runs change the script in the same way. -/
lemma editSource (h : Alongside n m p q) (edit : Edit α) :
    SameEnd n m p ((Run.editSource edit).outcome p) ((Run.editSource edit).outcome q) := by
  obtain ⟨source, result, steps⟩ := p
  obtain ⟨source', result', steps'⟩ := q
  obtain ⟨rfl, rfl, related⟩ := h
  exact ⟨rfl, ⟨rfl, rfl, related⟩, fun _ ht => ht⟩

/-- One part of the runs after the other. -/
lemma bind {x y : Run α} {f g : α → Run β}
    (first : SameEnd n m p (x.outcome p) (y.outcome q))
    (rest : ∀ a p' q', Alongside n m p' q' →
      (∀ t, p.result.isSection t = true → p'.result.isSection t = true) →
      SameEnd n m p' ((f a).outcome p') ((g a).outcome q')) :
    SameEnd n m p ((x >>= f).outcome p) ((y >>= g).outcome q) := by
  rw [Run.outcome_bind, Run.outcome_bind]
  revert first
  rcases x.outcome p with ⟨_, p'⟩
  rcases y.outcome q with ⟨out, q'⟩
  rintro ⟨rfl, alongside, kept⟩
  cases out with
  | error e => exact ⟨rfl, alongside, kept⟩
  | ok a =>
    obtain ⟨outcome, alongside', kept'⟩ := rest a p' q' alongside kept
    exact ⟨outcome, alongside', fun t ht => kept' t (kept t ht)⟩

end SameEnd

section

variable {process : Host} {limits : Limits} {body : Body}
  (hbody : ∀ (id t : Nat) p q, Alongside n m p q → p.result.isSection t = true →
    SameEnd n m p ((body id t).outcome p) ((body id (relocate n m t)).outcome q))

include hbody

/-- The rounds of a loop go side by side. -/
lemma repeatWhile_sameEnd (condition : Configuration → Except (Exit ConfigError) Bool) (id : NodeId)
    {t : Nat} (rounds : Nat) {p q : Progress} (h : Alongside n m p q)
    (target : p.result.isSection t = true) :
    SameEnd n m p
      ((Run.repeatWhile limits.steps (Run.compute condition) (body id t) rounds).outcome p)
      ((Run.repeatWhile limits.steps (Run.compute condition) (body id (relocate n m t))
        rounds).outcome q) := by
  induction rounds generalizing p q with
  | zero => exact .tick h _
  | succ rounds ih =>
    refine .bind (.compute h condition) fun holds p₁ q₁ h₁ kept₁ => ?_
    cases holds with
    | false => exact .pure h₁ ()
    | true =>
      refine .bind (.tick h₁ _) fun _ p₂ q₂ h₂ kept₂ => ?_
      have target₂ := kept₂ t (kept₁ t target)
      exact .bind (hbody id t p₂ q₂ h₂ target₂) fun _ p₃ q₃ h₃ kept₃ => ih h₃ (kept₃ t target₂)

/-- The copies of a section are filled side by side. -/
lemma copySection_sameEnd (id : NodeId) {t : Nat} {p q : Progress} (h : Alongside n m p q)
    (target : p.result.isSection t = true) :
    SameEnd n m p ((copySection process body t id).outcome p)
      ((copySection process body (relocate n m t) id).outcome q) := by
  refine .bind (.compute h _) fun skipped p₁ q₁ h₁ kept₁ => ?_
  cases skipped with
  | true => exact .pure h₁ ()
  | false =>
    refine .bind (.compute h₁ _) fun header p₂ q₂ h₂ kept₂ => ?_
    have target₂ := kept₂ t (kept₁ t target)
    unfold Edit.addSection
    obtain ⟨e, refused, refused'⟩ | ⟨stored, next, added, added'⟩ :=
      h₂.result.append target₂ .sectionKind header.name header.value
    · rw [Run.outcome_edit_error refused, Run.outcome_edit_error refused']
      exact ⟨rfl, h₂, fun _ ht => ht⟩
    · rw [Run.outcome_edit_ok added, Run.outcome_edit_ok added']
      have new : (p₂.result.addNode .sectionKind t stored header.value).isSection
          p₂.result.nodes.size = true := by
        obtain ⟨d, live, -⟩ := isSection_iff.1 target₂
        exact isSection_iff.2 ⟨_, live?_addNode_new live, kind_new true _⟩
      obtain ⟨out, after, after', run, run', related, kept₃⟩ :=
        appendAttributes_relocated next new header.attributes
      have kept : ∀ s, p₂.result.isSection s = true → after.isSection s = true :=
        fun s hs => kept₃ s (isSection_addNode target₂ hs)
      cases out with
      | error e =>
        rw [Run.outcome_edit_error run, Run.outcome_edit_error run']
        exact ⟨rfl, ⟨h₂.source, h₂.steps, related⟩, kept⟩
      | ok u =>
        rw [Run.outcome_edit_ok run, Run.outcome_edit_ok run']
        obtain ⟨outcome, alongside, kept'⟩ := hbody id p₂.result.nodes.size
          { p₂ with result := after } { q₂ with result := after' }
          ⟨h₂.source, h₂.steps, related⟩ (kept₃ _ new)
        exact ⟨outcome, alongside, fun s hs => kept' s (kept s hs)⟩

/-- Instructions are carried out side by side. -/
lemma carryOut_sameEnd (control : Control) (before : Option Bool) (id : NodeId) {t : Nat}
    {p q : Progress} (h : Alongside n m p q) (target : p.result.isSection t = true) :
    SameEnd n m p ((carryOut process limits body t id before control).outcome p)
      ((carryOut process limits body (relocate n m t) id before control).outcome q) := by
  cases control with
  | assign =>
    refine .bind (.compute h _) fun assignment p₁ q₁ h₁ _ => ?_
    exact .bind (.editSource h₁ _) fun _ _ _ h₂ _ => .pure h₂ none
  | repeatWhile =>
    exact .bind (repeatWhile_sameEnd hbody _ id _ h target) fun _ _ _ h₁ _ => .pure h₁ none
  | whenTrue =>
    refine .bind (.compute h _) fun taken p₁ q₁ h₁ kept₁ => ?_
    cases taken with
    | false => exact .pure h₁ (some false)
    | true =>
      exact .bind (hbody id t p₁ q₁ h₁ (kept₁ t target)) fun _ _ _ h₂ _ => .pure h₂ (some true)
  | otherwise =>
    cases before with
    | none => exact .bind (.compute h _) fun _ _ _ h₁ _ => .pure h₁ none
    | some taken =>
      cases taken with
      | true => exact .bind (.pure h ()) fun _ _ _ h₁ _ => .pure h₁ none
      | false => exact .bind (hbody id t p q h target) fun _ _ _ h₁ _ => .pure h₁ none
  | call =>
    refine .bind (.compute h _) fun callee p₁ q₁ h₁ kept₁ => ?_
    exact .bind (hbody callee t p₁ q₁ h₁ (kept₁ t target)) fun _ _ _ h₂ _ => .pure h₂ none

/-- Sections are visited side by side. -/
lemma visit_sameEnd (before : Option Bool) (id : NodeId) {t : Nat} {p q : Progress}
    (h : Alongside n m p q) (target : p.result.isSection t = true) :
    SameEnd n m p ((visit process limits body t id before).outcome p)
      ((visit process limits body (relocate n m t) id before).outcome q) := by
  refine .bind (.tick h _) fun _ p₁ q₁ h₁ kept₁ => ?_
  refine .bind (.compute h₁ _) fun found p₂ q₂ h₂ kept₂ => ?_
  have target₂ := kept₂ t (kept₁ t target)
  cases found with
  | none => exact .pure h₂ before
  | some name =>
    dsimp only
    cases Control.ofName? name with
    | some control => exact carryOut_sameEnd hbody control before id h₂ target₂
    | none =>
      have copied : ∀ {p q}, Alongside n m p q → p.result.isSection t = true →
          SameEnd n m p
            ((copySection process body t id >>= fun _ => pure (none : Option Bool)).outcome p)
            ((copySection process body (relocate n m t) id >>=
              fun _ => pure (none : Option Bool)).outcome q) :=
        fun h target =>
          .bind (copySection_sameEnd hbody id h target) fun _ _ _ h' _ => .pure h' none
      cases isReserved name with
      | true => exact .bind (.compute h₂ _) fun _ p₃ q₃ h₃ kept₃ => copied h₃ (kept₃ t target₂)
      | false => exact copied h₂ target₂

/-- Sections one after the other are visited side by side. -/
lemma visitAll_sameEnd (ids : List NodeId) (before : Option Bool) {t : Nat} {p q : Progress}
    (h : Alongside n m p q) (target : p.result.isSection t = true) :
    SameEnd n m p ((visitAll process limits body t before ids).outcome p)
      ((visitAll process limits body (relocate n m t) before ids).outcome q) := by
  induction ids generalizing before p q with
  | nil => exact .pure h ()
  | cons id ids ih =>
    exact .bind (visit_sameEnd hbody before id h target) fun after p₁ q₁ h₁ kept₁ =>
      ih after h₁ (kept₁ t target)

end

/-- The bodies of sections are run side by side, in whatever room. -/
lemma runBody_sameEnd (process : Host) (limits : Limits) (room : Nat) (id t : Nat)
    (p q : Progress) (h : Alongside n m p q) (target : p.result.isSection t = true) :
    SameEnd n m p ((runBody process limits room id t).outcome p)
      ((runBody process limits room id (relocate n m t)).outcome q) := by
  induction room generalizing id t p q with
  | zero =>
    rw [runBody, runBody]
    exact .compute h _
  | succ room ih =>
    refine .bind (.compute h _) fun ids p₁ q₁ h₁ kept₁ => ?_
    exact visitAll_sameEnd ih ids none h₁ (kept₁ t target)

/-! ## Whole runs -/

section

variable {source conf : Configuration} {process : Host} {limits : Limits} {header : Header}
  {name : String}

/-- A name that is refused is refused for a result of any content. -/
lemma prepare_refused (wf : conf.WellFormed) (writable : conf.readOnly = false) {e : ConfigError}
    (refused : requireName header.name = .error e) :
    (prepare header).apply conf = (.error e, conf.emptyNode root) := by
  obtain ⟨d, hd, sec, -⟩ := wf.root
  have open' : (conf.emptyNode root).checkWritable = .ok () := checkWritable_ok.2 writable
  rw [prepare, Edit.apply_bind_ok (Edit.apply_clear writable hd sec), Edit.apply_bind, Edit.rename,
    Edit.apply_checked_error]
  rw [open', refused]
  rfl

/-- A result of any content is bared, and then the attributes are appended. -/
lemma prepare_apply (wf : conf.WellFormed) (writable : conf.readOnly = false)
    (stored : requireName header.name = .ok name) :
    (prepare header).apply conf =
      (appendAttributes root header.attributes).apply (conf.bared name header.value) := by
  obtain ⟨d, hd, sec, -⟩ := wf.root
  have emptied := live?_emptyNode_self wf hd
  have open' : (conf.emptyNode root).checkWritable = .ok () := checkWritable_ok.2 writable
  have named : (Edit.rename root header.name).apply (conf.emptyNode root) =
      (.ok (), (conf.emptyNode root).replaceName root name) := by
    refine Edit.apply_checked_ok (a := name) ?_
    rw [open', stored, requireLive_ok.2 emptied]
    rfl
  have writable' : ((conf.emptyNode root).replaceName root name).readOnly = false := writable
  rw [prepare, Edit.apply_bind_ok (Edit.apply_clear writable hd sec), Edit.apply_bind_ok named,
    Edit.apply_bind_ok (Edit.apply_setValue writable' (live?_replaceName_self emptied))]
  rfl

/-- A run ends before it begins if its header cannot be evaluated. -/
lemma execute_noHeader {e : ConfigError} (head : headerOf process source root = .error e) :
    execute process limits source conf = (.error (.fails e), ⟨source, conf, 0⟩) :=
  Run.outcome_look_error head

/-- A run ends before its body if the result cannot be prepared. -/
lemma execute_refused {e : ConfigError} {conf' : Configuration}
    (head : headerOf process source root = .ok header)
    (refused : (prepare header).apply conf = (.error e, conf')) :
    execute process limits source conf = (.error (.fails e), ⟨source, conf', 0⟩) :=
  (Run.outcome_look_ok head).trans (Run.outcome_edit_error refused)

/-- A run into a prepared result is that of the body. -/
lemma execute_prepared {conf' : Configuration} (head : headerOf process source root = .ok header)
    (prepared : (prepare header).apply conf = (.ok (), conf')) :
    execute process limits source conf =
      (runBody process limits (limits.depth + 1) root root).outcome ⟨source, conf', 0⟩ :=
  (Run.outcome_look_ok head).trans (Run.outcome_edit_ok prepared)

end

/-- What a script leaves behind does not depend on what its result was before: two runs into
writable results end alike, with the same script, and if they succeed with results of the same
shape. -/
theorem execute_independent (process : Host) (limits : Limits) (source : Configuration)
    {r₁ r₂ : Configuration} (h₁ : Reachable r₁) (h₂ : Reachable r₂)
    (writable₁ : r₁.readOnly = false) (writable₂ : r₂.readOnly = false) :
    (execute process limits source r₂).1 = (execute process limits source r₁).1 ∧
      (execute process limits source r₂).2.source = (execute process limits source r₁).2.source ∧
      ((execute process limits source r₁).1 = .ok () →
        (execute process limits source r₂).2.result.shape root =
          (execute process limits source r₁).2.result.shape root) := by
  have wf₁ := h₁.wellFormed
  have wf₂ := h₂.wellFormed
  cases head : headerOf process source root with
  | error e =>
    rw [execute_noHeader head, execute_noHeader head]
    exact ⟨rfl, rfl, nofun⟩
  | ok header =>
    cases stored : requireName header.name with
    | error e =>
      rw [execute_refused head (prepare_refused wf₁ writable₁ stored),
        execute_refused head (prepare_refused wf₂ writable₂ stored)]
      exact ⟨rfl, rfl, nofun⟩
    | ok name =>
      have same := relocated_bared wf₁ wf₂ writable₁ writable₂
        (goodName_of_validName? (requireName_ok.1 stored)) header.value
      obtain ⟨d, hd, sec, -⟩ := same.wellFormed.root
      obtain ⟨out, after, after', run, run', related, kept⟩ :=
        appendAttributes_relocated same (isSection_iff.2 ⟨d, hd, sec⟩) header.attributes
      have prepared := (prepare_apply wf₁ writable₁ stored).trans run
      have prepared' := (prepare_apply wf₂ writable₂ stored).trans run'
      cases out with
      | error e =>
        rw [execute_refused head prepared, execute_refused head prepared']
        exact ⟨rfl, rfl, nofun⟩
      | ok u =>
        rw [execute_prepared head prepared, execute_prepared head prepared']
        obtain ⟨outcome, alongside, -⟩ := runBody_sameEnd process limits (limits.depth + 1) root
          root ⟨source, after, 0⟩ ⟨source, after', 0⟩ ⟨rfl, rfl, related⟩
          (kept root (isSection_iff.2 ⟨d, hd, sec⟩))
        obtain ⟨r, hr, -⟩ := alongside.result.wellFormed.root
        exact ⟨outcome, alongside.source, fun _ => alongside.result.shape hr⟩

/-- A loop that counts in its script and appends a section in each round, run into an empty result
and into one with other content, a deleted node and variables of its own. -/
theorem execute_independent_loop :
    let here : Host := ⟨[("HOST", "here")], .epoch⟩
    let source := (withRoot "list").operateAll
      [(.bare, .addAttribute 0 "n" (some "0")), (.bare, .addSection 0 "_loop" (some "$(/$n) < 2")),
        (.bare, .addSection 2 "item$(/$n)" (some "$(~HOST)")), (.bare, .addSection 2 "_set" none),
        (.bare, .addAttribute 4 "path" (some "/$n")),
        (.bare, .addAttribute 4 "to" (some "$(/$n) + 1"))]
    let r₁ := withRoot "first"
    let r₂ := (withRoot "second").operateAll
      [(.bare, .addSection 0 "item0" (some "old")), (.bare, .addAttribute 0 "n" (some "7")),
        (.bare, .delete 1), (.bare, .setEnvironment (.fixed [("HOST", "other")]))]
    Reachable r₁ ∧ Reachable r₂ ∧ r₁.readOnly = false ∧ r₂.readOnly = false ∧
      (execute here ⟨20, 4⟩ source r₂).1 = .ok () ∧
      (execute here ⟨20, 4⟩ source r₂).2.source.verbatim? 1 = some "2" ∧
      ((execute here ⟨20, 4⟩ source r₂).2.result.shape root).children.map
        (fun s => (s.name, s.value)) = [("item0", some "here"), ("item1", some "here")] := by
  intro here source r₁ r₂
  have h₁ : Reachable r₁ := .withRoot "first"
  have h₂ : Reachable r₂ :=
    (Reachable.withRoot "second").operateAll _ (by simp [Operation.others])
  have writable₁ : r₁.readOnly = false := rfl
  have writable₂ : r₂.readOnly = false := by decide +kernel
  have ok : (execute here ⟨20, 4⟩ source r₁).1 = .ok () := by decide +kernel
  obtain ⟨outcome, script, shape⟩ :=
    execute_independent here ⟨20, 4⟩ source h₁ h₂ writable₁ writable₂
  refine ⟨h₁, h₂, writable₁, writable₂, outcome.trans ok, ?_, ?_⟩
  · rw [script]
    decide +kernel
  · rw [shape ok]
    decide +kernel

end ConfTree.Script
