import ConfTree.Proofs.Evaluation.Agreement
import ConfTree.Proofs.Path.Failures
import ConfTree.Proofs.Tree.Twins

/-!
# Self-contained sections

A section is self-contained if the paths in the references below it are relative and never lead up
from it (`SelfContained`). What is evaluated below such a section looks at nothing else, so it goes
alongside in a section that mirrors it: from twin to twin, with twins on the stack and as many
substitutions (`Mirror.nodeValueWithin`). In particular an imported section has the values of the
section that it is a copy of (`importNode_values`).
-/

namespace ConfTree

open ConfTree.Eval ConfTree.Configuration

/-! ## Paths that stay inside -/

namespace Path

variable (conf : Configuration) (valueOf : ValueOf Eval) (top : NodeId)

/-- Wherever the segments lead from the node, none of them leads up from the section at the top. -/
def Stays : NodeId → List Segment → Prop
  | _, [] => True
  | id, segment :: segments => (segment = .parent → id ≠ top) ∧
    ∀ next, (step conf valueOf id segment).Yields (some next) → Stays next segments

/-- The alternatives of the path do not start at the root, and do not lead up from the section at
the top. -/
def StaysInside (start : Option NodeId) (path : String) : Prop :=
  ∀ cs ∈ (Outline.read path.toList).alternatives, ∀ alternative,
    Alternative.read cs = .ok alternative →
      alternative.fromRoot = false ∧ ∀ id ∈ start, Stays conf valueOf top id alternative.segments

end Path

/-- The references below the section have paths that stay inside, relative to their contexts and
with whatever room there is on the stack. -/
def SelfContained (process : Host) (conf : Configuration) (top : NodeId) : Prop :=
  ∀ id d raw body path, conf.Below top id → conf.live? id = some d → d.value = some raw →
    .reference body ∈ pieces raw.toList → (Reference.read body).target = .node path →
      ∀ room,
        Path.StaysInside conf (nodeValueWithin Eval process conf room) top (contextOf id d) path

namespace Configuration.Mirror

/-! ## Navigation alongside -/

variable {conf conf' : Configuration} {top top' x y : Nat} (m : Mirror conf conf' top top')

include m

section

variable (h : Twins conf conf' top top' x y)

include h

/-- Twins have the same name. -/
lemma hasName : conf.hasName x = conf'.hasName y := by
  obtain ⟨d, e, live, live', -⟩ := m.same h
  obtain ⟨name, -⟩ := m.data h live live'
  funext wanted
  rw [Configuration.hasName, Configuration.hasName, live, live']
  dsimp only
  rw [name]

/-- The attributes of twins are twins, in order. -/
lemma attributesOf :
    List.Forall₂ (Twins conf conf' top top') (conf.attributesOf x) (conf'.attributesOf y) := by
  obtain ⟨d, e, live, live', -⟩ := m.same h
  rw [attributesOf_eq live, attributesOf_eq live']
  exact m.entries h live live' .attributeKind

/-- The child sections of twins are twins, in order. -/
lemma childrenOf :
    List.Forall₂ (Twins conf conf' top top') (conf.childrenOf x) (conf'.childrenOf y) := by
  obtain ⟨d, e, live, live', -⟩ := m.same h
  rw [childrenOf_eq live, childrenOf_eq live']
  exact m.entries h live live' .sectionKind

omit h

/-- Among twins, those of a name are twins. -/
lemma filter_hasName {ids ids' : List NodeId}
    (twins : List.Forall₂ (Twins conf conf' top top') ids ids') (name : String) :
    List.Forall₂ (Twins conf conf' top top') (ids.filter (conf.hasName · name))
      (ids'.filter (conf'.hasName · name)) :=
  List.rel_filter (by
    intro x y h
    dsimp only
    rw [m.hasName h]) twins

include h

/-- A selector looks at twins in twins. -/
lemma keyAttribute? (key : String) : Option.Rel (Twins conf conf' top top')
    (Path.keyAttribute? conf x key) (Path.keyAttribute? conf' y key) := by
  have first := rel_getElem? (m.filter_hasName (m.attributesOf h) key) 0
  rwa [← List.head?_eq_getElem?, ← List.head?_eq_getElem?, List.head?_filter,
    List.head?_filter] at first

/-- A segment chooses from twins. -/
lemma candidates (name : Option String) : List.Forall₂ (Twins conf conf' top top')
    (Path.candidates conf x name) (Path.candidates conf' y name) := by
  cases name with
  | none => exact m.childrenOf h
  | some name => exact m.filter_hasName (m.childrenOf h) name

end

variable {S : EvalState → EvalState → Prop} {valueOf valueOf' : Path.ValueOf Eval}
  (values : ∀ {x y}, Twins conf conf' top top' x y → Agrees S (· = ·) (valueOf x) (valueOf' y))

include values

/-- A selector by value leads from twins to twins. -/
lemma firstMatching (key wanted : String) {ids ids' : List NodeId}
    (twins : List.Forall₂ (Twins conf conf' top top') ids ids') :
    Agrees S (Option.Rel (Twins conf conf' top top'))
      (Path.firstMatching conf valueOf key wanted ids)
      (Path.firstMatching conf' valueOf' key wanted ids') := by
  induction twins with
  | nil => exact .pure .none
  | @cons x y ids ids' h _ ih =>
    have keys := m.keyAttribute? h key
    rw [Path.firstMatching, Path.firstMatching]
    generalize Path.keyAttribute? conf x key = found at keys ⊢
    generalize Path.keyAttribute? conf' y key = found' at keys ⊢
    cases keys with
    | none => exact ih
    | some key =>
      refine (values key).bind ?_
      rintro actual _ rfl
      split
      · exact .pure (.some h)
      · exact ih

/-- Steps lead from twins to twins, but for the one up from the section at the top. -/
lemma step (h : Twins conf conf' top top' x y) {segment : Path.Segment}
    (stays : segment = .parent → x ≠ top) :
    Agrees S (Option.Rel (Twins conf conf' top top')) (Path.step conf valueOf x segment)
      (Path.step conf' valueOf' y segment) := by
  obtain ⟨d, e, live, live', -⟩ := m.same h
  cases segment with
  | current =>
    refine .pure ?_
    rw [liveId?, liveId?, live, live']
    exact .some h
  | parent =>
    refine .pure ?_
    obtain ⟨rfl, -⟩ | ⟨p, q, parent, parent', twins⟩ := m.parent h live live'
    · exact absurd rfl (stays rfl)
    · rw [live, live', Option.bind_some, Option.bind_some, parent, parent']
      exact .some twins
  | attributeNamed name => exact .pure (m.keyAttribute? h name)
  | attributeAt n => exact .pure (rel_getElem? (m.attributesOf h) n)
  | child name selector =>
    have among := m.candidates h name
    cases selector with
    | none =>
      refine .pure ?_
      rw [List.head?_eq_getElem?, List.head?_eq_getElem?]
      exact rel_getElem? among 0
    | some selector =>
      cases selector with
      | index n => exact .pure (rel_getElem? among n)
      | matching key value => exact m.firstMatching values key value among

/-- Segments that stay inside lead from twins to twins. -/
lemma follow {start start' : Option NodeId}
    (twins : Option.Rel (Twins conf conf' top top') start start') {segments : List Path.Segment}
    (stays : ∀ id ∈ start, Path.Stays conf valueOf top id segments) :
    Agrees S (Option.Rel (Twins conf conf' top top')) (Path.follow conf valueOf start segments)
      (Path.follow conf' valueOf' start' segments) := by
  induction segments generalizing start start' with
  | nil =>
    cases twins with
    | none => exact .pure .none
    | some h => exact .pure (.some h)
  | cons segment segments ih =>
    cases twins with
    | none => exact .pure .none
    | @some x y h =>
      obtain ⟨inside, later⟩ := stays x rfl
      refine (m.step values h inside).yields.bind ?_
      rintro next next' ⟨leads, twins⟩
      refine ih twins ?_
      rintro id rfl
      exact later id leads

variable {start start' : Option NodeId}
  (twins : Option.Rel (Twins conf conf' top top') start start')

include twins

/-- Alternatives that stay inside lead from twins to twins. -/
lemma firstExisting {alternatives : List (List Char)}
    (stays : ∀ cs ∈ alternatives, ∀ alternative, Path.Alternative.read cs = .ok alternative →
      alternative.fromRoot = false ∧
        ∀ id ∈ start, Path.Stays conf valueOf top id alternative.segments) :
    Agrees S (Option.Rel (Twins conf conf' top top'))
      (Path.firstExisting conf valueOf start alternatives)
      (Path.firstExisting conf' valueOf' start' alternatives) := by
  induction alternatives with
  | nil => exact .pure .none
  | cons cs rest ih =>
    refine Agrees.bind (V := Option.Rel (Twins conf conf' top top')) ?_ fun found found' twins => ?_
    · rw [Path.followAlternative, Path.followAlternative]
      cases read : Path.Alternative.read cs with
      | error fault => exact .throw rfl
      | ok alternative =>
        obtain ⟨relative, inside⟩ := stays cs List.mem_cons_self alternative read
        simp only [relative, Bool.false_eq_true, if_false]
        exact m.follow values twins inside
    · cases twins with
      | none => exact ih fun cs hcs => stays cs (List.mem_cons_of_mem _ hcs)
      | some h => exact .pure (.some h)

/-- A path that stays inside leads from twins to twins. -/
lemma navigate {path : String} (stays : Path.StaysInside conf valueOf top start path) :
    Agrees S (Option.Rel (Twins conf conf' top top')) (Path.navigate conf valueOf start path)
      (Path.navigate conf' valueOf' start' path) := by
  refine (m.firstExisting values twins stays).bind fun found found' twins => ?_
  cases twins with
  | some h => exact .pure (.some h)
  | none =>
    dsimp only
    split
    · exact .throw rfl
    · exact .pure .none

/-! ## Texts alongside -/

variable {process : Host} (environment : conf.environment = conf'.environment)
  (provider : conf.provider = conf'.provider)

include environment

/-- The input of a macro that stays inside is the same at twins. -/
lemma input {target : Target}
    (stays : ∀ path, target = .node path → Path.StaysInside conf valueOf top start path) :
    Agrees S (· = ·) (target.input process conf valueOf start)
      (target.input process conf' valueOf' start') := by
  cases target with
  | nothing => exact .pure rfl
  | variableNamed name =>
    refine .pure ?_
    rw [environment]
  | node path =>
    refine (m.navigate values twins (stays path rfl)).bind fun found found' twins => ?_
    cases twins with
    | none => exact .pure rfl
    | some h =>
      refine (values h).bind ?_
      rintro value _ rfl
      exact .pure rfl

include provider

/-- A reference that stays inside is resolved alike at twins. -/
lemma resolve {r : Reference}
    (stays : ∀ path, r.target = .node path → Path.StaysInside conf valueOf top start path) :
    Agrees S (· = ·) (r.resolve process conf valueOf start)
      (r.resolve process conf' valueOf' start') := by
  refine (m.input values twins environment stays).bind ?_
  rintro input _ rfl
  dsimp only
  split
  · exact .throw rfl
  · cases r.call with
    | none => exact .pure rfl
    | some text =>
      dsimp only
      rw [← provider]
      refine (Agrees.answer _).bind ?_
      rintro call _ rfl
      exact .answer _

variable (counts : CountsAlike S)

include counts

/-- A text whose references stay inside is evaluated alike at twins. -/
lemma evaluateText {text : String}
    (stays : ∀ body path, .reference body ∈ pieces text.toList →
      (Reference.read body).target = .node path → Path.StaysInside conf valueOf top start path) :
    Agrees S (· = ·) (evaluateText process conf valueOf start text)
      (evaluateText process conf' valueOf' start' text) := by
  refine (Agrees.joinPieces counts text text fun body hb => ?_).map _
  exact m.resolve values twins environment provider fun path => stays body path hb

end Configuration.Mirror

/-! ## Values alongside -/

/-- The stacks hold related nodes, and the substitutions are as many. -/
structure Parallel (R : NodeId → NodeId → Prop) (s s' : EvalState) : Prop where
  stack : List.Forall₂ R s.stack s'.stack
  substitutions : s.substitutions = s'.substitutions

namespace Parallel

variable {R : NodeId → NodeId → Prop} {s s' : EvalState}

/-- States in parallel count substitutions alike. -/
lemma countsAlike : CountsAlike (Parallel R) :=
  fun _ _ h => ⟨h.substitutions, h.stack, congrArg Nat.succ h.substitutions⟩

/-- Related nodes go on stacks in parallel. -/
lemma push {x y : NodeId} (h : R x y) (parallel : Parallel R s s') :
    Parallel R { s with stack := x :: s.stack } { s' with stack := y :: s'.stack } :=
  ⟨.cons h parallel.stack, parallel.substitutions⟩

/-- The last nodes come off stacks in parallel. -/
lemma pop (parallel : Parallel R s s') :
    Parallel R { s with stack := s.stack.tail } { s' with stack := s'.stack.tail } := by
  refine ⟨?_, parallel.substitutions⟩
  rw [← List.drop_one, ← List.drop_one]
  exact List.forall₂_drop 1 parallel.stack

end Parallel

namespace Configuration.Mirror

variable {conf conf' : Configuration} {top top' x y : Nat} (m : Mirror conf conf' top top')
  (h : Twins conf conf' top top' x y)

include m h

/-- Twins are relative to twins. -/
lemma contextOf {d e : NodeData} (live : conf.live? x = some d) (live' : conf'.live? y = some e) :
    Option.Rel (Twins conf conf' top top') (contextOf x d) (contextOf y e) := by
  obtain ⟨-, -, kind⟩ := m.data h live live'
  have same : d.isSection = e.isSection := by
    rw [Bool.eq_iff_iff, ← NodeData.kind_eq_sectionKind, ← NodeData.kind_eq_sectionKind, kind]
  rw [ConfTree.contextOf, ConfTree.contextOf, ← same]
  cases sec : d.isSection with
  | true => exact .some h
  | false =>
    obtain ⟨rfl, -⟩ | ⟨p, q, parent, parent', twins⟩ := m.parent h live live'
    · -- The section at the top is no attribute.
      obtain ⟨t, live₁, kind⟩ := m.live
      rw [live] at live₁
      cases live₁
      rw [NodeData.kind_eq_sectionKind.1 kind] at sec
      cases sec
    · rw [parent, parent']
      exact .some twins

/-- A node is on the stack where its twin is. -/
lemma checked {t t' : Eval (Option String)}
    (rest : Agrees (Parallel (Twins conf conf' top top')) (· = ·) t t') :
    Agrees (Parallel (Twins conf conf' top top')) (· = ·)
      (do
        let s ← get
        if s.stack.contains x then
          MonadExcept.throw (.recursiveVariable (cyclePaths conf s.stack x))
        t)
      (do
        let s ← get
        if s.stack.contains y then
          MonadExcept.throw (.recursiveVariable (cyclePaths conf' s.stack y))
        t') := by
  intro s s' parallel
  have same : x ∈ s.stack ↔ y ∈ s'.stack := List.rel_mem m.biUnique h parallel.stack
  rw [apply_bind_ok apply_get, apply_bind_ok apply_get]
  by_cases hm : x ∈ s.stack
  · rw [if_pos (List.contains_iff_mem.2 hm), if_pos (List.contains_iff_mem.2 (same.1 hm))]
    exact ⟨.error rfl, parallel⟩
  · rw [if_neg (mt List.contains_iff_mem.1 hm), if_neg (mt List.contains_iff_mem.1 (mt same.2 hm))]
    exact rest s s' parallel

omit h

/-- Below a self-contained section, a node is evaluated as its twin is. -/
lemma nodeValueWithin {process : Host} (environment : conf.environment = conf'.environment)
    (provider : conf.provider = conf'.provider) (inside : SelfContained process conf top)
    (room : Nat) {x y : Nat} (h : Twins conf conf' top top' x y) :
    Agrees (Parallel (Twins conf conf' top top')) (· = ·) (nodeValueWithin Eval process conf room x)
      (nodeValueWithin Eval process conf' room y) := by
  induction room using Nat.strong_induction_on generalizing x y with
  | h room ih =>
    obtain ⟨d, e, live, live', -⟩ := m.same h
    obtain ⟨-, value, -⟩ := m.data h live live'
    rw [nodeValueWithin.eq_def, nodeValueWithin.eq_def, live, live']
    dsimp only
    rw [← value]
    cases has : d.value with
    | none => exact .pure rfl
    | some raw =>
      dsimp only
      split
      · refine m.checked h ?_
        cases room with
        | zero => exact .throw rfl
        | succ room =>
          refine Agrees.map (.within (fun _ _ => .push h) (fun _ _ => .pop) ?_) _
          exact m.evaluateText (ih room (Nat.lt_succ_self room)) (m.contextOf h live live')
            environment provider Parallel.countsAlike fun body path hb target =>
              inside x d raw body path (m.below h) live has hb target room
      · exact .pure rfl

/-- Below a self-contained section, a node has the value of its twin. -/
lemma value? {process : Host} (environment : conf.environment = conf'.environment)
    (provider : conf.provider = conf'.provider) (inside : SelfContained process conf top)
    (h : Twins conf conf' top top' x y) :
    Agree (· = ·) (conf.value? process x) (conf'.value? process y) := by
  have start : Parallel (Twins conf conf' top top') .start .start := ⟨.nil, rfl⟩
  obtain ⟨same, -⟩ := m.nodeValueWithin environment provider inside maxDepth h _ _ start
  have run : (nodeValue Eval process conf x).apply .start = _ := apply_bind_ok apply_get
  have run' : (nodeValue Eval process conf' y).apply .start = _ := apply_bind_ok apply_get
  change Agree (· = ·) ((nodeValue Eval process conf x).apply .start).1
    ((nodeValue Eval process conf' y).apply .start).1
  rw [run, run']
  exact same

end Configuration.Mirror

/-! ## Levels -/

namespace Path

/-- From so many levels below a section, the segments do not lead up from it. -/
def staysWithin : Nat → List Segment → Bool
  | _, [] => true
  | 0, .parent :: _ => false
  | level + 1, .parent :: segments => staysWithin level segments
  | level, .current :: segments => staysWithin level segments
  | level, _ :: segments => staysWithin (level + 1) segments

/-- What leads neither up nor nowhere leads one level down. -/
lemma staysWithin_down {level : Nat} {segment : Segment} {segments : List Segment}
    (down : segment ≠ .parent) (onward : segment ≠ .current) :
    staysWithin level (segment :: segments) = staysWithin (level + 1) segments := by
  cases segment with
  | parent => exact absurd rfl down
  | current => exact absurd rfl onward
  | _ => cases level <;> rfl

end Path

/-- The node is so many levels below the section. -/
inductive LevelBelow (conf : Configuration) (top : Nat) : Nat → Nat → Prop where
  | top :
    LevelBelow conf top 0 top
  | step {id p d level} :
    conf.live? id = some d →
    d.parent = some p →
    LevelBelow conf top level p →
    LevelBelow conf top (level + 1) id

/-- What is some levels below a node is below it. -/
lemma LevelBelow.isBelow {conf : Configuration} {top level id : Nat}
    (h : LevelBelow conf top level id) : conf.Below top id := by
  induction h with
  | top => exact .self
  | step live hp _ ih => exact .step live hp ih

/-- An entry is one level below. -/
lemma LevelBelow.entry {conf : Configuration} (wf : conf.WellFormed) {top level id next : Nat}
    (h : LevelBelow conf top level id) (hm : next ∈ conf.attributesOf id ++ conf.childrenOf id) :
    LevelBelow conf top (level + 1) next := by
  cases live : conf.live? id with
  | none => simp [attributesOf, childrenOf, live] at hm
  | some d =>
    obtain ⟨k, hk⟩ := (mem_attributesOf_append live).1 hm
    obtain ⟨e, live', -, hp⟩ := wf.listed id d k next live hk
    exact .step live' hp h

namespace Path

variable {conf : Configuration} {valueOf : ValueOf Eval} {top : Nat}

/-- A selector by value leads to one of the sections. -/
lemma mem_of_firstMatching {key wanted : String} {ids : List NodeId} {next : NodeId}
    (leads : (firstMatching conf valueOf key wanted ids).Yields (some next)) : next ∈ ids := by
  induction ids with
  | nil => cases leads.of_pure
  | cons id ids ih =>
    rw [firstMatching] at leads
    cases found : keyAttribute? conf id key with
    | none =>
      rw [found] at leads
      exact List.mem_cons_of_mem _ (ih leads)
    | some keyed =>
      rw [found] at leads
      obtain ⟨actual, -, rest⟩ := leads.of_bind
      split at rest
      · cases rest.of_pure
        exact List.mem_cons_self
      · exact List.mem_cons_of_mem _ (ih rest)

/-- A step that leads neither up nor nowhere leads to an entry. -/
lemma mem_of_step {id next : NodeId} {segment : Segment}
    (leads : (step conf valueOf id segment).Yields (some next)) :
    segment = .parent ∨ segment = .current ∨
      next ∈ conf.attributesOf id ++ conf.childrenOf id := by
  cases segment with
  | current => exact .inr (.inl rfl)
  | parent => exact .inl rfl
  | attributeNamed name =>
    exact .inr (.inr (List.mem_append_left _ (List.mem_of_find?_eq_some leads.of_pure)))
  | attributeAt n =>
    exact .inr (.inr (List.mem_append_left _ (List.mem_of_getElem? leads.of_pure)))
  | child name selector =>
    have among : next ∈ candidates conf id name := by
      cases selector with
      | none => exact List.mem_of_head? leads.of_pure
      | some selector =>
        cases selector with
        | index n => exact List.mem_of_getElem? leads.of_pure
        | matching key value => exact mem_of_firstMatching leads
    exact .inr (.inr (List.mem_append_right _ (mem_childrenOf among)))

/-- Segments do not lead up from a section if they do not by their levels. -/
lemma stays_of_staysWithin (wf : conf.WellFormed) {segments : List Segment} {level id : Nat}
    (h : LevelBelow conf top level id) (within : staysWithin level segments = true) :
    Stays conf valueOf top id segments := by
  induction segments generalizing level id with
  | nil => exact trivial
  | cons segment segments ih =>
    by_cases up : segment = .parent
    · subst up
      cases h with
      | top => cases within
      | @step _ p d level live hp above =>
        rw [staysWithin] at within
        refine ⟨?_, fun next leads => ?_⟩
        · rintro - rfl
          have := above.isBelow.le wf
          have := (wf.parent live hp).1
          omega
        · obtain ⟨d₁, live₁, hp₁⟩ := Option.bind_eq_some_iff.1 leads.of_pure
          rw [live] at live₁
          cases live₁
          rw [hp] at hp₁
          cases hp₁
          exact ih above within
    refine ⟨fun h => absurd h up, fun next leads => ?_⟩
    by_cases onward : segment = .current
    · subst onward
      rw [staysWithin] at within
      obtain ⟨d, live, rfl⟩ := Option.map_eq_some_iff.1 leads.of_pure
      exact ih h within
    · rw [staysWithin_down up onward] at within
      obtain parent | current | listed := mem_of_step leads
      · exact absurd parent up
      · exact absurd current onward
      · exact ih (h.entry wf listed) within

/-- The alternatives of the path do not start at the root, and from so many levels below a section
they do not lead up from it. -/
def isInside (level : Nat) (path : String) : Bool :=
  (Outline.read path.toList).alternatives.all fun cs =>
    match Alternative.read cs with
    | .ok alternative => !alternative.fromRoot && staysWithin level alternative.segments
    | .error _ => true

/-- A path stays inside if it does by its levels. -/
lemma staysInside_of_isInside (wf : conf.WellFormed) {start : Option NodeId} {level : Nat}
    (h : ∀ id ∈ start, LevelBelow conf top level id) {path : String}
    (inside : isInside level path = true) : StaysInside conf valueOf top start path := by
  intro cs hcs alternative read
  have holds := List.all_eq_true.1 inside cs hcs
  rw [read] at holds
  obtain ⟨relative, within⟩ := Bool.and_eq_true_iff.1 holds
  exact ⟨by simpa using relative, fun id hid => stays_of_staysWithin wf (h id hid) within⟩

end Path

/-- The reference of a piece, if it has a path, stays inside by its levels. -/
def Piece.isInside (level : Nat) : Piece → Bool
  | .reference body =>
    match (Reference.read body).target with
    | .node path => Path.isInside level path
    | _ => true
  | _ => true

/-- A section is self-contained if all references below it stay inside by their levels. -/
lemma selfContained_of_levels (process : Host) {conf : Configuration} (wf : conf.WellFormed)
    {top : Nat}
    (inside : ∀ id d raw, conf.Below top id → conf.live? id = some d → d.value = some raw →
      ∃ level, (∀ start ∈ contextOf id d, LevelBelow conf top level start) ∧
        (pieces raw.toList).all (Piece.isInside level) = true) :
    SelfContained process conf top := by
  intro id d raw body path below live value hb target room
  obtain ⟨level, levels, holds⟩ := inside id d raw below live value
  have holds := List.all_eq_true.1 holds _ hb
  rw [Piece.isInside, target] at holds
  exact Path.staysInside_of_isInside wf levels holds

/-! ## Imported sections -/

/-- An imported section that is self-contained has the values of the section that it is a copy of,
node by node: the same text or none, or an error of the same kind. -/
theorem importNode_values {other conf conf' : Configuration} (h : Reachable other)
    (h' : Reachable conf) (process : Host) (environment : conf.environment = other.environment)
    (provider : conf.provider = other.provider) {parent node c : NodeId}
    (sec : other.isSection node = true) (inside : SelfContained process other node)
    (run : (Edit.importNode parent other node).apply conf = (.ok c, conf')) :
    (∀ y, conf'.Below c y → ∃! x, Twins other conf' node c x y) ∧
    (∀ x, other.Below node x → ∃! y, Twins other conf' node c x y) ∧
    ∀ x y, Twins other conf' node c x y →
      other.nameOf x = conf'.nameOf y ∧ other.verbatim? x = conf'.verbatim? y ∧
        Agree (· = ·) (other.value? process x) (conf'.value? process y) := by
  have m : Mirror other conf' node c := mirror_importNode h'.wellFormed h.wellFormed sec run
  have changes : Relation.ReflTransGen Change conf
      ((Edit.importNode parent other node).apply conf).2 :=
    Edit.Makes.importNode parent other node conf
  rw [run] at changes
  obtain ⟨environment', provider'⟩ := environment_of_changes changes
  refine ⟨fun y below => ?_, fun x below => ?_, fun x y twins => ?_⟩
  · obtain ⟨x, twins⟩ := m.symm.exists_twin below
    exact ⟨x, twins.symm, fun z other => m.biUnique.1 other twins.symm⟩
  · obtain ⟨y, twins⟩ := m.exists_twin below
    exact ⟨y, twins, fun z other => m.biUnique.2 other twins⟩
  · obtain ⟨d, e, live, live', -⟩ := m.same twins
    obtain ⟨name, value, -⟩ := m.data twins live live'
    refine ⟨?_, ?_, ?_⟩
    · simp [nameOf, live, live', name]
    · simp [verbatim?, live, live', value]
    · exact m.value? (environment'.trans environment).symm (provider'.trans provider).symm inside
        twins

/-- A section whose references select by a value, count, go up as far as the section, take a
variable, call a macro and close a cycle is imported to another place, where names mean other nodes.
-/
theorem importNode_values_sample :
    let other := (withRoot "a").operateAll
      [(.bare, .addSection 0 "s" none), (.bare, .addAttribute 1 "x" (some "7")),
        (.bare, .addSection 1 "t" (some "$(../[k=7]/$v::or)$(~HOME)")),
        (.bare, .addSection 1 "u" none),
        (.bare, .addAttribute 4 "k" (some "$(../$x)")),
        (.bare, .addAttribute 4 "v" (some "<$($[0])>")),
        (.bare, .addAttribute 1 "w" (some "$($w)")),
        (.bare, .setEnvironment (.fixed [("HOME", "/root")])),
        (.bare, .setProvider (Macro.builtin none))]
    let conf := (withRoot "b").operateAll
      [(.bare, .addSection 0 "p" none), (.bare, .addAttribute 1 "x" (some "9")),
        (.bare, .setEnvironment (.fixed [("HOME", "/root")])),
        (.bare, .setProvider (Macro.builtin none))]
    let conf' := ((Edit.importNode 1 other 1).apply conf).2
    Reachable other ∧ Reachable conf ∧ other.isSection 1 = true ∧ SelfContained .bare other 1 ∧
      (Edit.importNode 1 other 1).apply conf = (.ok 3, conf') ∧
      Twins other conf' 1 3 3 6 ∧ Twins other conf' 1 3 7 5 ∧
      other.value? .bare 3 = .ok (some "<7>/root") ∧
      Agree (· = ·) (other.value? .bare 3) (conf'.value? .bare 6) ∧
      conf'.value? .bare 5 = .error (.recursiveVariable ["/p/s/$w", "/p/s/$w"]) ∧
      Agree (· = ·) (other.value? .bare 7) (conf'.value? .bare 5) := by
  intro other conf conf'
  have h : Reachable other :=
    (Reachable.withRoot "a").operateAll _ (by simp [Operation.others])
  have h' : Reachable conf :=
    (Reachable.withRoot "b").operateAll _ (by simp [Operation.others])
  have sec : other.isSection 1 = true := by decide +kernel
  have copied : ((Edit.importNode 1 other 1).apply conf).1 = .ok 3 := by decide +kernel
  have run : (Edit.importNode 1 other 1).apply conf = (.ok 3, conf') := Prod.fst_eq_iff.1 copied
  have inside : SelfContained .bare other 1 := by
    obtain ⟨s, live, -⟩ := isSection_iff.1 sec
    have nodes : other.preorder 1 = [1, 2, 7, 3, 4, 5, 6] := by decide +kernel
    have checked : ∀ id ∈ [1, 2, 7, 3, 4, 5, 6], ∀ d ∈ other.live? id, ∀ raw ∈ d.value,
        (contextOf id d = some 1 ∧ (pieces raw.toList).all (Piece.isInside 0) = true) ∨
          (contextOf id d = some 3 ∨ contextOf id d = some 4) ∧
            (pieces raw.toList).all (Piece.isInside 1) = true := by decide +kernel
    have parents : ∀ id ∈ [3, 4], (other.live? id).bind (·.parent) = some 1 := by decide +kernel
    have below : ∀ id ∈ [3, 4], LevelBelow other 1 1 id := by
      intro id hid
      obtain ⟨d, live, hp⟩ := Option.bind_eq_some_iff.1 (parents id hid)
      exact .step live hp .top
    refine selfContained_of_levels .bare h.wellFormed fun id d raw hb live' value => ?_
    rw [← mem_preorder_iff h.wellFormed live, nodes] at hb
    obtain ⟨context, all⟩ | ⟨context | context, all⟩ := checked id hb d live' raw value
    · refine ⟨0, ?_, all⟩
      rw [context]
      rintro _ ⟨⟩
      exact .top
    · refine ⟨1, ?_, all⟩
      rw [context]
      rintro _ ⟨⟩
      exact below 3 (by decide)
    · refine ⟨1, ?_, all⟩
      rw [context]
      rintro _ ⟨⟩
      exact below 4 (by decide)
  have environment : conf.environment = .fixed [("HOME", "/root")] := rfl
  have environment' : other.environment = .fixed [("HOME", "/root")] := rfl
  have provider : conf.provider = Macro.builtin none := rfl
  have provider' : other.provider = Macro.builtin none := rfl
  obtain ⟨-, -, values⟩ := importNode_values h h' .bare (environment.trans environment'.symm)
    (provider.trans provider'.symm) sec inside run
  have tops : (other.live? 1).map (·.entries .sectionKind) = some [3, 4] ∧
      (other.live? 1).map (·.entries .attributeKind) = some [2, 7] ∧
      (conf'.live? 3).map (·.entries .sectionKind) = some [6, 7] ∧
      (conf'.live? 3).map (·.entries .attributeKind) = some [4, 5] := by decide +kernel
  obtain ⟨sections, attributes, sections', attributes'⟩ := tops
  have t : Twins other conf' 1 3 3 6 := by
    obtain ⟨d, live, list⟩ := Option.map_eq_some_iff.1 sections
    obtain ⟨e, live', list'⟩ := Option.map_eq_some_iff.1 sections'
    exact .entry (k := .sectionKind) (i := 0) .top live live' (by rw [list]; rfl)
      (by rw [list']; rfl)
  have w : Twins other conf' 1 3 7 5 := by
    obtain ⟨d, live, list⟩ := Option.map_eq_some_iff.1 attributes
    obtain ⟨e, live', list'⟩ := Option.map_eq_some_iff.1 attributes'
    exact .entry (k := .attributeKind) (i := 1) .top live live' (by rw [list]; rfl)
      (by rw [list']; rfl)
  exact ⟨h, h', sec, inside, run, t, w, by decide +kernel, (values 3 6 t).2.2, by decide +kernel,
    (values 7 5 w).2.2⟩

end ConfTree
