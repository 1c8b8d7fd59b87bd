import ConfTree.Proofs.Script.Appending
import ConfTree.Proofs.Script.Determinism
import ConfTree.Proofs.Text.Lowercase

/-!
# Scripts without instructions

Run as a script, a tree without instructions is copied: its root, and below every section that is
copied its child sections, but for those whose script-only attribute has a true value. The copy has
evaluated names and values (`evaluatedCopy`). It is made if all that goes into it can be evaluated,
and if the limits allow for a step for each section that is visited and for the depth of each that
is copied (`Copyable`).

A task `Copies` sections if it appends them to any section that it is given. What the rules make of
the sections of a script one after the other is added up in shapes and steps.
-/

namespace ConfTree.Script

open ConfTree.Configuration

/-! ## The copy -/

section

variable (process : Host) (conf : Configuration)

/-- The attributes that are not for scripts only, with their values. -/
def evaluatedAttributes (attributes : List Attribute) :
    Except ConfigError (List (String × Option String)) :=
  (attributes.filter fun a => !Text.sameName a.name scriptOnly).mapM fun a => do
    let value ← conf.value? process a.id
    return (a.name, value)

mutual

/-- The evaluated copy of a section. References in its name are relative to `context`. -/
def evaluatedCopy (context : NodeId) : Subtree → Except ConfigError Shape
  | .mk id name _ attributes children => do
    let name ← conf.evaluate process (some context) name
    let value ← conf.value? process id
    let attributes ← evaluatedAttributes process conf attributes
    let children ← evaluatedCopies id children
    return .mk (Text.trim name) value attributes children

/-- The evaluated copies of child sections, but for those that are for scripts only. -/
def evaluatedCopies (parent : NodeId) : List Subtree → Except ConfigError (List Shape)
  | [] => return []
  | t :: ts => do
    let skipped ← isScriptOnly process conf t.id
    if skipped then evaluatedCopies parent ts
    else
      let s ← evaluatedCopy parent t
      let rest ← evaluatedCopies parent ts
      return s :: rest

end

/-- A section of a script that is copied: how deep it lies, and the section that references in its
name are relative to. -/
structure Placed where
  depth : Nat
  context : NodeId
  tree : Subtree

mutual

/-- A section and those below it that are copied with it. -/
def copiedFrom (depth : Nat) (context : NodeId) : Subtree → List Placed
  | .mk id name value attributes children =>
    ⟨depth, context, .mk id name value attributes children⟩ ::
      copiedAmong (depth + 1) id children

/-- The child sections that are not for scripts only, and those below them that are copied with
them. -/
def copiedAmong (depth : Nat) (parent : NodeId) : List Subtree → List Placed
  | [] => []
  | t :: ts =>
    match isScriptOnly process conf t.id with
    | .ok true => copiedAmong depth parent ts
    | _ => copiedFrom depth parent t ++ copiedAmong depth parent ts

end

/-- The sections that are copied, the root first. -/
def copied : List Placed := copiedFrom process conf 0 root (conf.subtree root)

/-- The sections that are visited when these are copied. -/
def visitedBy (ps : List Placed) : List Subtree := ps.flatMap fun p => p.tree.children

/-- The name, the value and the attributes of the section can be evaluated, and the name is not
blank then. -/
def Placed.Evaluates (p : Placed) : Prop :=
  (∃ name ∈ (conf.evaluate process (some p.context) p.tree.name).toOption, Text.trim name ≠ "") ∧
    (conf.value? process p.tree.id).isOk = true ∧
    ∀ a ∈ p.tree.attributes, Text.sameName a.name scriptOnly = false →
      (conf.value? process a.id).isOk = true

instance (p : Placed) : Decidable (p.Evaluates process conf) := by
  unfold Placed.Evaluates
  infer_instance

/-- The script can be copied: it holds no instructions, what is copied can be evaluated, and the
limits allow for it. -/
structure Copyable (limits : Limits) : Prop where
  ordinary : ∀ s ∈ (conf.shape root).descendants, isReserved s.name = false
  evaluates : ∀ p ∈ copied process conf, p.Evaluates process conf
  flags : ∀ t ∈ visitedBy (copied process conf), (isScriptOnly process conf t.id).isOk = true
  steps : (visitedBy (copied process conf)).length ≤ limits.steps
  deep : ∀ p ∈ copied process conf, p.depth ≤ limits.depth

end

/-! ## Names -/

/-- Case does not count for reserved names. -/
lemma isReserved_fold (name : String) : isReserved (Text.fold name) = isReserved name := by
  have same : ∀ c : Char, decide (c.toLower = '_') = decide (c = '_') :=
    Text.apply_toLower (f := fun c => decide (c = '_')) (by decide)
  rw [isReserved, isReserved, Text.fold, String.toList_ofList, Text.foldChars, List.head?_map]
  cases name.toList.head? with
  | none => rfl
  | some c => exact same c

/-- The names of instructions are reserved. -/
lemma ofName?_eq_none {name : String} (ordinary : isReserved name = false) :
    Control.ofName? name = none := by
  have other : ∀ word, isReserved word = true → Text.fold name ≠ word := by
    rintro word reserved rfl
    rw [isReserved_fold, ordinary] at reserved
    cases reserved
  simp [Control.ofName?, other "_set" (by decide), other "_loop" (by decide),
    other "_if" (by decide), other "_else" (by decide), other "_call" (by decide)]

/-! ## Headers -/

section

variable {process : Host} {source : Configuration}

/-- The mark for scripts is known by its name, in any ASCII case. -/
lemma isNamed_scriptOnly (id : NodeId) :
    source.isNamed id scriptOnly = Text.sameName (source.nameOf id) scriptOnly := by
  have trimmed : Text.trim scriptOnly = scriptOnly := by decide
  rw [isNamed, trimmed, hasName, nameOf]
  cases source.live? id with
  | none => decide
  | some d => rfl

/-- Attributes are evaluated one after the other, but for marks for scripts. -/
lemma evaluatedAttributes_cons (a : Attribute) (attributes : List Attribute) :
    evaluatedAttributes process source (a :: attributes) =
      if Text.sameName a.name scriptOnly then evaluatedAttributes process source attributes
      else do
        let value ← source.value? process a.id
        let rest ← evaluatedAttributes process source attributes
        return (a.name, value) :: rest := by
  unfold evaluatedAttributes
  rw [List.filter_cons]
  cases Text.sameName a.name scriptOnly with
  | true => rfl
  | false => exact List.mapM_cons.trans (bind_assoc _ _ _)

/-- The attributes of a header are those that are not for scripts only. -/
lemma headerAttributes_eq (ids : List NodeId) :
    headerAttributes process source ids =
      evaluatedAttributes process source (ids.map source.attributeView) := by
  induction ids with
  | nil => rfl
  | cons id ids ih =>
    rw [headerAttributes, isNamed_scriptOnly, List.map_cons, evaluatedAttributes_cons, ih]
    rfl

/-- The attributes of a header are attributes of the section, without marks for scripts. -/
lemma headerAttributes_ok {ids : List NodeId} {attributes : List (String × Option String)}
    (h : headerAttributes process source ids = .ok attributes) :
    ∀ a ∈ attributes, ∃ id ∈ ids, a.1 = source.nameOf id ∧
      Text.sameName a.1 scriptOnly = false := by
  induction ids generalizing attributes with
  | nil =>
    cases h
    exact nofun
  | cons id ids ih =>
    rw [headerAttributes, isNamed_scriptOnly] at h
    cases forScripts : Text.sameName (source.nameOf id) scriptOnly with
    | true =>
      rw [forScripts, if_pos rfl] at h
      intro a ha
      obtain ⟨c, hc, found⟩ := ih h a ha
      exact ⟨c, List.mem_cons_of_mem _ hc, found⟩
    | false =>
      rw [forScripts, if_neg (by decide)] at h
      obtain ⟨value, -, h⟩ := bind_eq_ok h
      obtain ⟨rest, read, h⟩ := bind_eq_ok h
      cases h
      intro a ha
      rcases List.mem_cons.1 ha with rfl | ha
      · exact ⟨id, List.mem_cons_self, rfl, forScripts⟩
      · obtain ⟨c, hc, found⟩ := ih read a ha
        exact ⟨c, List.mem_cons_of_mem _ hc, found⟩

/-- The attributes of a header have good names, and none is for scripts only. -/
lemma headerOf_attributes (wfs : source.WellFormed) {id : NodeId} {header : Header}
    (h : headerOf process source id = .ok header) :
    ∀ a ∈ header.attributes, GoodName a.1 ∧ Text.sameName a.1 scriptOnly = false := by
  obtain ⟨name, -, h⟩ := bind_eq_ok h
  obtain ⟨value, -, h⟩ := bind_eq_ok h
  obtain ⟨attributes, read, h⟩ := bind_eq_ok h
  cases h
  intro a ha
  obtain ⟨c, hc, named, ordinary⟩ := headerAttributes_ok read a ha
  refine ⟨?_, ordinary⟩
  cases live : source.live? id with
  | none => simp [attributesOf, live] at hc
  | some d =>
    rw [attributesOf_eq live] at hc
    obtain ⟨e, live', -⟩ := wfs.listed id d _ c live hc
    rw [named, nameOf, live']
    exact wfs.named c e live'

/-- The header of a section is read off its subtree. -/
lemma headerOf_eq (wfs : source.WellFormed) {t : Subtree} (taken : TakenFrom source t) :
    headerOf process source t.id = do
      let name ← source.evaluate process (some ((source.parent? t.id).getD t.id)) t.name
      let value ← source.value? process t.id
      let attributes ← evaluatedAttributes process source t.attributes
      return ⟨name, value, attributes⟩ := by
  rw [headerOf, headerAttributes_eq, taken.nameOf wfs, taken.map_attributesOf wfs]

/-- A section without the attribute of sections that are for scripts only is not one of them. -/
lemma isScriptOnly_of_unmarked (wfs : source.WellFormed) {t : Subtree} (taken : TakenFrom source t)
    (unmarked : ∀ a ∈ t.shape.attributes, Text.sameName a.1 scriptOnly = false) :
    isScriptOnly process source t.id = .ok false := by
  have missing : source.attribute? t.id scriptOnly = none := by
    refine List.find?_eq_none.2 fun c hc => ?_
    have other := unmarked (source.attributeView c).pair (by
      rw [t.attributes_shape, ← taken.map_attributesOf wfs]
      exact List.mem_map_of_mem (List.mem_map_of_mem hc))
    rw [isNamed_scriptOnly]
    exact Bool.eq_false_iff.1 other
  rw [isScriptOnly, attributeValue, missing]
  rfl

/-- Attributes can be evaluated together if each of them can. -/
lemma evaluatedAttributes_ok {attributes : List Attribute}
    (h : ∀ a ∈ attributes, Text.sameName a.name scriptOnly = false →
      (source.value? process a.id).isOk = true) :
    ∃ values, evaluatedAttributes process source attributes = .ok values := by
  induction attributes with
  | nil => exact ⟨[], rfl⟩
  | cons a attributes ih =>
    obtain ⟨values, rest⟩ := ih fun x hx => h x (List.mem_cons_of_mem _ hx)
    rw [evaluatedAttributes_cons, rest]
    cases forScripts : Text.sameName a.name scriptOnly with
    | true => exact ⟨values, rfl⟩
    | false =>
      obtain ⟨value, found⟩ := isOk_iff.1 (h a List.mem_cons_self forScripts)
      rw [found]
      exact ⟨(a.name, value) :: values, rfl⟩

end

/-! ## What copying adds up to -/

section

variable (process : Host) (limits : Limits) (source : Configuration)

/-- The task appends child sections of these shapes to every open section, in so many steps if the
budget has them left, and leaves the script as it is. -/
def Copies (depth : Nat) (task : NodeId → Task) (steps : Nat) (cs : List Shape) : Prop :=
  ∀ (result : Configuration) (target n : Nat), Open result target → n + steps ≤ limits.steps →
    ∃ log result', Runs process limits depth (task target) ⟨source, result, n⟩ log (.ok none)
        ⟨source, result', n + steps⟩ ∧
      Appends target result result' cs

/-- All that the copy of the section and the visits of its child sections need is there. -/
structure Placed.Ready (p : Placed) : Prop where
  evaluates : p.Evaluates process source
  flags : ∀ t ∈ p.tree.children, (isScriptOnly process source t.id).isOk = true
  ordinary : ∀ t ∈ p.tree.children, isReserved t.name = false
  deep : p.depth ≤ limits.depth

end

section

variable {process : Host} {limits : Limits} {source : Configuration}

namespace Copies

variable {depth : Nat} {id : NodeId} {ids : List NodeId} {d : NodeData} {n m : Nat}
  {xs cs : List Shape}

/-- Nothing is copied from no sections. -/
lemma nil : Copies process limits source depth (.visits none []) 0 [] :=
  fun _ _ _ opened _ => ⟨[], _, .visited, .refl opened⟩

/-- A block copies what the visits of its child sections do. -/
lemma block (shallow : depth ≤ limits.depth)
    (visits : Copies process limits source depth (.visits none (source.childrenOf id)) n cs) :
    Copies process limits source depth (.block id) n cs := by
  intro result target k opened budget
  obtain ⟨log, result', run, appends⟩ := visits result target k opened budget
  exact ⟨_, result', .block shallow run, appends⟩

/-- A section that is for scripts only takes a step and is passed over. -/
lemma skip (live : source.live? id = some d) (ordinary : isReserved d.name = false)
    (flag : isScriptOnly process source id = .ok true)
    (rest : Copies process limits source depth (.visits none ids) n cs) :
    Copies process limits source depth (.visits none (id :: ids)) (n + 1) cs := by
  intro result target k opened budget
  obtain ⟨log, result', run, appends⟩ := rest result target (k + 1) opened (by omega)
  have steps : k + 1 + n = k + (n + 1) := by omega
  rw [steps] at run
  have within : k + 1 ≤ limits.steps := by omega
  exact ⟨_, result',
    .next (.ordinary within live (ofName?_eq_none ordinary) ordinary (.skipped flag)) run, appends⟩

/-- A section that is copied takes a step, and those of its body. -/
lemma cons (live : source.live? id = some d) (ordinary : isReserved d.name = false)
    (flag : isScriptOnly process source id = .ok false) {header : Header}
    (head : headerOf process source id = .ok header) (named : Text.trim header.name ≠ "")
    (good : ∀ a ∈ header.attributes, GoodName a.1)
    (body : Copies process limits source (depth + 1) (.block id) m xs)
    (rest : Copies process limits source depth (.visits none ids) n cs) :
    Copies process limits source depth (.visits none (id :: ids)) (m + n + 1)
      (.mk (Text.trim header.name) header.value header.attributes xs :: cs) := by
  intro result target k opened budget
  obtain ⟨added, filled, add, attributes, inner, fill⟩ :=
    addSection_spec opened header.value named good
  obtain ⟨log, result', run, appends⟩ := body _ _ (k + 1) inner (by omega)
  have first := fill appends
  obtain ⟨log', result'', run', appends'⟩ :=
    rest result' target (k + 1 + m) (opened.of_confined first.confined) (by omega)
  have steps : k + 1 + m + n = k + (m + n + 1) := by omega
  rw [steps] at run'
  have within : k + 1 ≤ limits.steps := by omega
  exact ⟨_, result'', .next (.ordinary within live (ofName?_eq_none ordinary) ordinary
    (.copied flag head add attributes run)) run', first.trans opened appends'⟩

end Copies

/-- The sections that the first one leads to come first. -/
lemma visitedBy_cons (p : Placed) (ps : List Placed) :
    visitedBy (p :: ps) = p.tree.children ++ visitedBy ps := List.flatMap_cons

/-- The sections that others lead to come in their order. -/
lemma visitedBy_append (ps qs : List Placed) :
    visitedBy (ps ++ qs) = visitedBy ps ++ visitedBy qs := List.flatMap_append

/-- A tree is copied from its section on, and then from those below it. -/
lemma copiedFrom_eq (depth : Nat) (context : NodeId) (t : Subtree) :
    copiedFrom process source depth context t =
      ⟨depth, context, t⟩ :: copiedAmong process source (depth + 1) t.id t.children := by
  cases t
  rfl

/-- The copy of a tree is evaluated from its name to its child sections. -/
lemma evaluatedCopy_eq (context : NodeId) (t : Subtree) :
    evaluatedCopy process source context t = do
      let name ← source.evaluate process (some context) t.name
      let value ← source.value? process t.id
      let attributes ← evaluatedAttributes process source t.attributes
      let children ← evaluatedCopies process source t.id t.children
      return .mk (Text.trim name) value attributes children := by
  cases t
  rfl

/-- The evaluated copy of a section begins with its header. -/
lemma evaluatedCopy_of_header (wfs : source.WellFormed) {t : Subtree} (taken : TakenFrom source t)
    {context : NodeId} (under : (source.parent? t.id).getD t.id = context) {header : Header}
    (head : headerOf process source t.id = .ok header) {cs : List Shape}
    (rest : evaluatedCopies process source t.id t.children = .ok cs) :
    evaluatedCopy process source context t =
      .ok (.mk (Text.trim header.name) header.value header.attributes cs) := by
  rw [headerOf_eq wfs taken, under] at head
  obtain ⟨name, named, head⟩ := bind_eq_ok head
  obtain ⟨value, valued, head⟩ := bind_eq_ok head
  obtain ⟨attributes, attributed, head⟩ := bind_eq_ok head
  cases head
  rw [evaluatedCopy_eq, named, valued, attributed, rest]
  rfl

/-- A section that is ready has a header, which its copy begins with. -/
lemma Placed.Ready.header (wfs : source.WellFormed) {p : Placed}
    (ready : p.Ready process limits source) (taken : TakenFrom source p.tree)
    (context : (source.parent? p.tree.id).getD p.tree.id = p.context) :
    ∃ header, headerOf process source p.tree.id = .ok header ∧ Text.trim header.name ≠ "" ∧
      ∀ cs, evaluatedCopies process source p.tree.id p.tree.children = .ok cs →
        evaluatedCopy process source p.context p.tree =
          .ok (.mk (Text.trim header.name) header.value header.attributes cs) := by
  obtain ⟨⟨name, evaluated, named⟩, valued, attributed⟩ := ready.evaluates
  have evaluated := mem_toOption.1 evaluated
  obtain ⟨value, valued⟩ := isOk_iff.1 valued
  obtain ⟨attributes, attributed⟩ := evaluatedAttributes_ok attributed
  have head : headerOf process source p.tree.id = .ok ⟨name, value, attributes⟩ := by
    rw [headerOf_eq wfs taken, context, evaluated, valued, attributed]
    rfl
  exact ⟨_, head, named, fun cs rest => evaluatedCopy_of_header wfs taken context head rest⟩

mutual

/-- The body of a section that is ready, with all that is copied below it, is copied. -/
lemma copies_body (wfs : source.WellFormed) {depth : Nat} {context : NodeId} :
    ∀ {t : Subtree}, TakenFrom source t →
      (∀ p ∈ copiedFrom process source depth context t, p.Ready process limits source) →
      ∃ cs, evaluatedCopies process source t.id t.children = .ok cs ∧
        Copies process limits source depth (.block t.id)
          (visitedBy (copiedFrom process source depth context t)).length cs
  | .mk id name value attributes children, taken, ready => by
    have own := ready _ List.mem_cons_self
    obtain ⟨cs, evaluated, copies⟩ := copies_visits wfs
      (fun t ht => ⟨taken.child wfs t ht, taken.parent wfs ht, own.ordinary t ht, own.flags t ht⟩)
      fun p hp => ready p (List.mem_cons_of_mem _ hp)
    refine ⟨cs, evaluated, .block own.deep ?_⟩
    have steps : (visitedBy (copiedFrom process source depth context
        (.mk id name value attributes children))).length = children.length +
        (visitedBy (copiedAmong process source (depth + 1) id children)).length := by
      rw [copiedFrom, visitedBy_cons, List.length_append]
      rfl
    rw [steps, ← taken.map_id_children wfs]
    exact copies

/-- Sections one after the other are copied or passed over. -/
lemma copies_visits (wfs : source.WellFormed) {depth : Nat} {parent : NodeId} :
    ∀ {ts : List Subtree}, (∀ t ∈ ts, TakenFrom source t ∧ source.parent? t.id = some parent ∧
        isReserved t.name = false ∧ (isScriptOnly process source t.id).isOk = true) →
      (∀ p ∈ copiedAmong process source (depth + 1) parent ts, p.Ready process limits source) →
      ∃ cs, evaluatedCopies process source parent ts = .ok cs ∧
        Copies process limits source depth (.visits none (ts.map Subtree.id))
          (ts.length + (visitedBy (copiedAmong process source (depth + 1) parent ts)).length) cs
  | [], _, _ => ⟨[], rfl, .nil⟩
  | t :: ts, visited, ready => by
    obtain ⟨taken, under, ordinary, flagged⟩ := visited t List.mem_cons_self
    obtain ⟨d, live, -, eq⟩ := taken.eq_mk wfs
    have name : t.name = d.name := by
      rw [eq]
      rfl
    rw [name] at ordinary
    have visited' := fun x hx => visited x (List.mem_cons_of_mem _ hx)
    obtain ⟨flag, found⟩ := isOk_iff.1 flagged
    rw [evaluatedCopies, copiedAmong, found]
    rw [copiedAmong, found] at ready
    cases flag with
    | true =>
      obtain ⟨cs, evaluated, copies⟩ := copies_visits wfs visited' ready
      refine ⟨cs, evaluated, ?_⟩
      rw [List.length_cons, Nat.add_right_comm]
      exact .skip live ordinary found copies
    | false =>
      have ready' := fun p hp => ready p (List.mem_append_right _ hp)
      have own : (⟨depth + 1, parent, t⟩ : Placed).Ready process limits source :=
        ready _ (List.mem_append_left _ (by rw [copiedFrom_eq]; exact List.mem_cons_self))
      obtain ⟨header, head, named, whole⟩ := own.header wfs taken (by rw [under]; rfl)
      obtain ⟨xs, inner, body⟩ :=
        copies_body wfs taken fun p hp => ready p (List.mem_append_left _ hp)
      obtain ⟨cs, evaluated, copies⟩ := copies_visits wfs visited' ready'
      refine ⟨.mk (Text.trim header.name) header.value header.attributes xs :: cs, ?_, ?_⟩
      · rw [ok_bind, if_neg (by decide), whole xs inner, evaluated]
        rfl
      · -- The visit of the section takes a step of its own, before those of its body and of the
        -- rest.
        have steps : (t :: ts).length +
            (visitedBy (copiedFrom process source (depth + 1) parent t ++
              copiedAmong process source (depth + 1) parent ts)).length =
            (visitedBy (copiedFrom process source (depth + 1) parent t)).length +
              (ts.length + (visitedBy (copiedAmong process source (depth + 1) parent ts)).length) +
              1 := by
          rw [visitedBy_append, List.length_append, List.length_cons]
          omega
        rw [steps]
        exact .cons live ordinary found head named
          (fun a ha => (headerOf_attributes wfs head a ha).1) body copies

end

/-! ## What is copied -/

mutual

/-- What holds of a section and is handed down to child sections holds of all that is copied with
the section. -/
lemma copiedFrom_ind {P : Placed → Prop}
    (step : ∀ p, P p → ∀ t ∈ p.tree.children, P ⟨p.depth + 1, p.tree.id, t⟩) {depth : Nat}
    {context : NodeId} : ∀ {t : Subtree}, P ⟨depth, context, t⟩ →
      ∀ p ∈ copiedFrom process source depth context t, P p
  | .mk id name value attributes children, h, p, hp => by
    rcases List.mem_cons.1 hp with rfl | hp
    · exact h
    · exact copiedAmong_ind step (fun t ht => step _ h t ht) p hp

/-- What holds of the trees and passes on to child sections holds of all that is copied. -/
lemma copiedAmong_ind {P : Placed → Prop}
    (step : ∀ p, P p → ∀ t ∈ p.tree.children, P ⟨p.depth + 1, p.tree.id, t⟩) {depth : Nat}
    {parent : NodeId} : ∀ {ts : List Subtree}, (∀ t ∈ ts, P ⟨depth, parent, t⟩) →
      ∀ p ∈ copiedAmong process source depth parent ts, P p
  | [], _, p, hp => by cases hp
  | t :: ts, h, p, hp => by
    have rest : p ∈ copiedAmong process source depth parent ts → P p :=
      copiedAmong_ind step (fun x hx => h x (List.mem_cons_of_mem _ hx)) p
    rw [copiedAmong] at hp
    split at hp
    · exact rest hp
    · rcases List.mem_append.1 hp with hp | hp
      · exact copiedFrom_ind step (h t List.mem_cons_self) p hp
      · exact rest hp

end

/-- The sections that are copied are sections of the script. -/
lemma shape_mem_of_copied {p : Placed} (hp : p ∈ copied process source) :
    p.tree.shape ∈ (source.shape root).sections := by
  refine copiedFrom_ind (P := fun p => p.tree.shape ∈ (source.shape root).sections)
    (fun p below t ht => ?_) (Shape.mem_sections_self _) p hp
  exact Shape.mem_sections_of_mem_descendants
    (Shape.mem_descendants_of_child below (Subtree.shape_mem_children ht))

/-- All that is copied of a script that can be copied is ready. -/
lemma Copyable.ready (h : Copyable process source limits) :
    ∀ p ∈ copied process source, p.Ready process limits source := by
  intro p hp
  refine ⟨h.evaluates p hp, fun t ht => h.flags t (List.mem_flatMap.2 ⟨p, hp, ht⟩),
    fun t ht => ?_, h.deep p hp⟩
  rw [← t.name_shape]
  exact h.ordinary _
    (Shape.mem_descendants_of_child (shape_mem_of_copied hp) (Subtree.shape_mem_children ht))

/-! ## Whole runs -/

/-- A script that can be copied runs into any writable result, and leaves its evaluated copy. -/
lemma Copyable.executes (h : Copyable process source limits) (wfs : source.WellFormed)
    {result : Configuration} (wf : result.WellFormed) (writable : result.readOnly = false) :
    ∃ log p, Executes process limits source result log (.ok ()) p ∧ p.source = source ∧
      evaluatedCopy process source root (source.subtree root) = .ok (p.result.shape root) := by
  obtain ⟨d, live, sec, top⟩ := wfs.root
  have taken := takenFrom_subtree live sec
  have own := h.ready ⟨0, root, source.subtree root⟩ (by
    rw [copied, copiedFrom_eq]
    exact List.mem_cons_self)
  obtain ⟨header, head, named, whole⟩ := own.header wfs taken (by
    rw [id_subtree]
    simp [parent?, live, top])
  obtain ⟨cs, evaluated, copies⟩ := copies_body wfs taken h.ready
  rw [id_subtree] at head copies
  obtain ⟨prepared, run, opened, bare⟩ := prepare_spec wf writable named
    fun a ha => (headerOf_attributes wfs head a ha).1
  obtain ⟨log, result', body, appends⟩ := copies prepared root 0 opened (by
    rw [Nat.zero_add]
    exact h.steps)
  refine ⟨log, _, .run head run body, rfl, ?_⟩
  rw [whole cs evaluated, appends.shape, bare]
  simp [Shape.extend, Shape.name, Shape.value, Shape.attributes, Shape.children]

end

/-- A script without instructions is an evaluated copy: if what is copied can be evaluated and the
limits allow for it, the script runs into any writable result, stays as it was, and leaves its
evaluated copy. -/
theorem execute_copy (process : Host) (limits : Limits) {source result : Configuration}
    (hs : Reachable source) (hr : Reachable result) (writable : result.readOnly = false)
    (copyable : Copyable process source limits) :
    (execute process limits source result).1 = .ok () ∧
      (execute process limits source result).2.source = source ∧
      evaluatedCopy process source root (source.subtree root) =
        .ok ((execute process limits source result).2.result.shape root) := by
  obtain ⟨log, p, run, same, copy⟩ := copyable.executes hs.wellFormed hr.wellFormed writable
  rw [run.execute_eq]
  exact ⟨rfl, same, copy⟩

/-- A section is named and filled by references, and one that is for scripts only is left out with
all below it, in exactly the steps and the depth that the copy takes. -/
theorem execute_copy_references :
    let here : Host := ⟨[("HOST", "here")], .epoch⟩
    let source := (withRoot "host $(~HOST)").operateAll
      [(.bare, .addAttribute 0 "Script-Only" (some "yes")),
       (.bare, .addAttribute 0 "port" (some "80")),
        (.bare, .addSection 0 " listen-$($port) " (some "$(~HOST):$(/$port)")),
        (.bare, .addAttribute 3 "script-only" (some "no")),
        (.bare, .addAttribute 3 "Kept" (some "$(/$port)0")),
        (.bare, .addSection 3 "leaf" none),
        (.bare, .addSection 0 "helper" none),
        (.bare, .addAttribute 7 "script-only" (some "$(/helper/on)")),
        (.bare, .addSection 7 "on" (some "on"))]
    let result := (withRoot "old").operateAll [(.bare, .addSection 0 "gone" none)]
    Reachable source ∧ Reachable result ∧ result.readOnly = false ∧
      Copyable here source ⟨3, 2⟩ ∧
      (execute here ⟨3, 2⟩ source result).1 = .ok () ∧
      (execute here ⟨3, 2⟩ source result).2.source = source ∧
      evaluatedCopy here source root (source.subtree root) =
        .ok ((execute here ⟨3, 2⟩ source result).2.result.shape root) ∧
      ((execute here ⟨3, 2⟩ source result).2.result.shape root).sections.map
          (fun s => (s.name, s.value, s.attributes)) =
        [("host here", none, [("port", some "80")]),
          ("listen-80", some "here:80", [("Kept", some "800")]), ("leaf", none, [])] := by
  intro here source result
  have hs : Reachable source :=
    (Reachable.withRoot "host $(~HOST)").operateAll _ (by simp [Operation.others])
  have hr : Reachable result :=
    (Reachable.withRoot "old").operateAll _ (by simp [Operation.others])
  have writable : result.readOnly = false := by decide +kernel
  have copyable : Copyable here source ⟨3, 2⟩ := by
    constructor <;> decide +kernel
  obtain ⟨ok, same, copy⟩ := execute_copy here ⟨3, 2⟩ hs hr writable copyable
  exact ⟨hs, hr, writable, copyable, ok, same, copy, by decide +kernel⟩

end ConfTree.Script
