import ConfTree.Proofs.Script.Output

/-!
# Reading the results of scripts

A script without instructions and without sections for scripts only leaves its evaluated copy behind
whenever it runs to a good end (`Executes.copy`). So every node of the result has a counterpart in
the script, whose value is its verbatim value (`Counterpart.copied`).

A reader of the result evaluates that value once more. So the node and its counterpart have the same
value if that holds no reference (`execute_reread`), but not always: an escape is gone after the
script, and a reference that comes from outside is followed (`not_execute_reread_escape`).
-/

namespace ConfTree.Script

open ConfTree.Configuration

variable {process : Host} {limits : Limits} {source : Configuration}

/-! ## Runs that copy -/

/-- No section is an instruction. -/
abbrev Uncontrolled (ss : List Shape) : Prop := ∀ s ∈ ss, Control.ofName? s.name = none

/-- A task that comes to a good end leaves the script as it is, and appends child sections of the
shapes that are evaluated. -/
def AppendsCopies (process : Host) (limits : Limits) (source : Configuration)
    (task : NodeId → Task) (copies : Except ConfigError (List Shape)) : Prop :=
  ∀ ⦃depth target p log after p'⦄, Runs process limits depth (task target) p log (.ok after) p' →
    p.source = source → Open p.result target →
    p'.source = source ∧ ∃ cs, copies = .ok cs ∧ Appends target p.result p'.result cs

/-- A visit of a section that is neither an instruction nor for scripts only, if it comes to a good
end, has added a section with its header and run its body below that. -/
lemma Runs.of_visit {depth : Nat} {before after : Option Bool} {id target : NodeId}
    {p p' : Progress} {log : List Event} {d : NodeData}
    (run : Runs process limits depth (.visit before id target) p log (.ok after) p')
    (live : p.source.live? id = some d) (plain : Control.ofName? d.name = none)
    (flag : isScriptOnly process p.source id = .ok false) :
    ∃ header added result result' log',
      headerOf process p.source id = .ok header ∧
        (Edit.addSection target header.name header.value).apply p.result = (.ok added, result) ∧
        (appendAttributes added header.attributes).apply result = (.ok (), result') ∧
        Runs process limits (depth + 1) (.block id added) { p.tick with result := result' } log'
          (.ok after) p' := by
  cases run with
  | gone _ dead => cases live.symm.trans dead
  | control _ live' control =>
    cases live.symm.trans live'
    cases plain.symm.trans control
  | ordinary _ _ _ _ copy =>
    cases copy with
    | skipped flag' => cases flag.symm.trans flag'
    | copied _ head add attributes body => exact ⟨_, _, _, _, _, head, add, attributes, body⟩

mutual

/-- The body of a section without instructions is copied. -/
lemma body_appendsCopies (wfs : source.WellFormed) : ∀ {t : Subtree}, TakenFrom source t →
    Uncontrolled t.shape.descendants → Unmarked t.shape →
    AppendsCopies process limits source (.block t.id)
      (evaluatedCopies process source t.id t.children)
  | .mk id name value attributes children, taken, uncontrolled, unmarked => by
    intro depth target p log after p' run same opened
    have ids : children.map Subtree.id = source.childrenOf id := taken.map_id_children wfs
    cases run with
    | block _ run =>
      rw [same] at run
      refine visits_appendsCopies wfs (fun t ht => ?_) none (ids ▸ run) same opened
      have below := Subtree.shape_mem_children (t := .mk id name value attributes children) ht
      exact ⟨taken.child wfs t ht, taken.parent wfs ht,
        fun s hs => uncontrolled s (Shape.mem_sectionsOf.2 ⟨_, below, hs⟩), unmarked.child below⟩

/-- Sections without instructions are copied one after the other. -/
lemma visits_appendsCopies (wfs : source.WellFormed) {parent : NodeId} : ∀ {ts : List Subtree},
    (∀ t ∈ ts, TakenFrom source t ∧ source.parent? t.id = some parent ∧
      Uncontrolled t.shape.sections ∧ Unmarked t.shape) →
    ∀ before, AppendsCopies process limits source (.visits before (ts.map Subtree.id))
      (evaluatedCopies process source parent ts)
  | [], _, before => by
    intro depth target p log after p' run same opened
    cases run with
    | visited => exact ⟨same, [], rfl, .refl opened⟩
  | t :: ts, visited, before => by
    intro depth target p log after p' run same opened
    obtain ⟨taken, under, uncontrolled, unmarked⟩ := visited t List.mem_cons_self
    have flag : isScriptOnly process source t.id = .ok false :=
      isScriptOnly_of_unmarked wfs taken (Shape.allAttributes_iff.1 unmarked).1
    obtain ⟨d, live, -, eq⟩ := taken.eq_mk wfs
    have plain : Control.ofName? d.name = none := by
      have own := uncontrolled _ (Shape.mem_sections_self _)
      rwa [t.name_shape, eq] at own
    cases run with
    | next visit rest =>
      obtain ⟨header, added, result, result', log', head, add, attributes, body⟩ :=
        visit.of_visit (same ▸ live) plain (same ▸ flag)
      rw [same] at head
      obtain ⟨inner, fill⟩ := addSection_ok opened
        (fun a ha => (headerOf_attributes wfs head a ha).1) add attributes
      obtain ⟨same', xs, evaluated, filled⟩ := body_appendsCopies wfs taken
        (fun s hs => uncontrolled s (Shape.mem_sections_of_mem_descendants hs)) unmarked body same
        inner
      have first := fill filled
      obtain ⟨same'', cs, evaluated', appends⟩ := visits_appendsCopies wfs
        (fun x hx => visited x (List.mem_cons_of_mem _ hx)) _ rest same'
        (opened.of_confined first.confined)
      have copy : evaluatedCopy process source parent t = _ :=
        evaluatedCopy_of_header wfs taken (by rw [under]; rfl) head evaluated
      refine ⟨same'', _, ?_, first.trans opened appends⟩
      rw [evaluatedCopies, flag, ok_bind, if_neg (by decide), copy, evaluated']
      rfl

end

/-- A script without instructions and without sections for scripts only leaves its evaluated copy
whenever it comes to a good end. -/
lemma Executes.copy {result : Configuration} {log : List Event} {p : Progress}
    (h : Executes process limits source result log (.ok ()) p) (wfs : source.WellFormed)
    (wf : result.WellFormed) (uncontrolled : Uncontrolled (source.shape root).descendants)
    (unmarked : Unmarked (source.shape root)) :
    p.source = source ∧
      evaluatedCopy process source root (source.subtree root) = .ok (p.result.shape root) := by
  obtain ⟨d, live, sec, top⟩ := wfs.root
  have taken := takenFrom_subtree live sec
  have own : (source.subtree root).id = root := source.id_subtree root
  have under : (source.parent? (source.subtree root).id).getD (source.subtree root).id = root := by
    rw [own]
    simp [parent?, live, top]
  have body : AppendsCopies process limits source (.block (source.subtree root).id) _ :=
    body_appendsCopies wfs taken uncontrolled unmarked
  cases h with
  | run head prepared run =>
    obtain ⟨writable, named⟩ := prepare_ok wf prepared
    obtain ⟨conf', prepared', opened, bare⟩ :=
      prepare_spec wf writable named fun a ha => (headerOf_attributes wfs head a ha).1
    cases prepared.symm.trans prepared'
    obtain ⟨same, cs, evaluated, appends⟩ := body (by rw [own]; exact run) rfl opened
    refine ⟨same, ?_⟩
    rw [← own] at head
    rw [evaluatedCopy_of_header wfs taken under head evaluated, appends.shape, bare]
    simp [Shape.extend, Shape.name, Shape.value, Shape.attributes, Shape.children]

/-! ## Counterparts -/

/-- The two nodes stand at the same place of the script and of the result: they are the roots, or
attributes or child sections in the same position below sections that do. -/
inductive Counterpart (source result : Configuration) : NodeId → NodeId → Prop where
  | roots : Counterpart source result root root
  | attributes {a b x y} :
    Counterpart source result a b →
    (x, y) ∈ (source.attributesOf a).zip (result.attributesOf b) →
    Counterpart source result x y
  | children {a b x y} :
    Counterpart source result a b →
    (x, y) ∈ (source.childrenOf a).zip (result.childrenOf b) →
    Counterpart source result x y

/-- The section of the result is an evaluated copy of a section of the script. -/
structure CopyOf (process : Host) (source result : Configuration) (t : Subtree) (id : NodeId) :
    Prop where
  taken : TakenFrom source t
  unmarked : Unmarked t.shape
  isSection : result.isSection id = true
  copy : ∃ context, evaluatedCopy process source context t = .ok (result.shape id)

/-- The value of the node of the script is the verbatim value of the node of the result. -/
def Evaluated (process : Host) (source result : Configuration) (a b : NodeId) : Prop :=
  source.value? process a = .ok (result.verbatim? b)

/-- Without marks for scripts each attribute is evaluated for itself. -/
lemma evaluatedAttributes_forall₂ {attributes : List Attribute}
    {values : List (String × Option String)}
    (unmarked : ∀ a ∈ attributes, Text.sameName a.name scriptOnly = false)
    (h : evaluatedAttributes process source attributes = .ok values) :
    List.Forall₂ (fun a v => source.value? process a.id = .ok v.2) attributes values := by
  induction attributes generalizing values with
  | nil =>
    cases h
    exact .nil
  | cons a attributes ih =>
    rw [evaluatedAttributes_cons, unmarked a List.mem_cons_self, if_neg (by decide)] at h
    obtain ⟨value, first, h⟩ := bind_eq_ok h
    obtain ⟨rest, others, h⟩ := bind_eq_ok h
    cases h
    exact .cons first (ih (fun x hx => unmarked x (List.mem_cons_of_mem _ hx)) others)

/-- Without marks for scripts each tree is evaluated for itself. -/
lemma evaluatedCopies_forall₂ {parent : NodeId} {ts : List Subtree} {ss : List Shape}
    (unmarked : ∀ t ∈ ts, isScriptOnly process source t.id = .ok false)
    (h : evaluatedCopies process source parent ts = .ok ss) :
    List.Forall₂ (fun t s => evaluatedCopy process source parent t = .ok s) ts ss := by
  induction ts generalizing ss with
  | nil =>
    cases h
    exact .nil
  | cons t ts ih =>
    rw [evaluatedCopies, unmarked t List.mem_cons_self, ok_bind, if_neg (by decide)] at h
    obtain ⟨s, first, h⟩ := bind_eq_ok h
    obtain ⟨rest, others, h⟩ := bind_eq_ok h
    cases h
    exact .cons first (ih (fun x hx => unmarked x (List.mem_cons_of_mem _ hx)) others)

namespace CopyOf

variable {result : Configuration} {t : Subtree} {id : NodeId}

/-- What an evaluated copy consists of. -/
lemma parts (h : CopyOf process source result t id) (wf : result.WellFormed) :
    source.value? process t.id = .ok (result.verbatim? id) ∧
      evaluatedAttributes process source t.attributes =
        .ok ((result.attributesOf id).map result.pairOf) ∧
      evaluatedCopies process source t.id t.children =
        .ok ((result.childrenOf id).map result.shape) := by
  obtain ⟨context, copy⟩ := h.copy
  obtain ⟨e, live, -⟩ := isSection_iff.1 h.isSection
  rw [evaluatedCopy_eq, shape_eq wf live] at copy
  obtain ⟨name, -, copy⟩ := bind_eq_ok copy
  obtain ⟨value, valued, copy⟩ := bind_eq_ok copy
  obtain ⟨attributes, attributed, copy⟩ := bind_eq_ok copy
  obtain ⟨children, below, copy⟩ := bind_eq_ok copy
  injection Except.ok.inj copy with _ same₁ same₂ same₃
  rw [valued, attributed, below, attributesOf_eq live, childrenOf_eq live, same₁, same₂, same₃]
  exact ⟨by simp [verbatim?, live], rfl, rfl⟩

/-- The attributes of a copy are those of its section one by one. -/
lemma attributes (h : CopyOf process source result t id) (wfs : source.WellFormed)
    (wf : result.WellFormed) :
    List.Forall₂ (Evaluated process source result) (source.attributesOf t.id)
      (result.attributesOf id) := by
  obtain ⟨-, attributed, -⟩ := h.parts wf
  have unmarked := (Shape.allAttributes_iff.1 h.unmarked).1
  rw [t.attributes_shape] at unmarked
  have pairs := evaluatedAttributes_forall₂
    (fun a ha => unmarked a.pair (List.mem_map_of_mem ha)) attributed
  rw [← h.taken.map_attributesOf wfs, List.forall₂_map_left_iff,
    List.forall₂_map_right_iff] at pairs
  exact pairs

/-- The child sections of a copy are copies of those of its section one by one. -/
lemma children (h : CopyOf process source result t id) (wfs : source.WellFormed)
    (wf : result.WellFormed) :
    List.Forall₂ (CopyOf process source result) t.children (result.childrenOf id) := by
  obtain ⟨-, -, below⟩ := h.parts wf
  obtain ⟨e, live, -⟩ := isSection_iff.1 h.isSection
  have unmarked {c : Subtree} (hc : c ∈ t.children) : Unmarked c.shape :=
    h.unmarked.child (Subtree.shape_mem_children hc)
  have copies := evaluatedCopies_forall₂ (fun c hc => isScriptOnly_of_unmarked wfs
    (h.taken.child wfs c hc) (Shape.allAttributes_iff.1 (unmarked hc)).1) below
  rw [List.forall₂_map_right_iff] at copies
  refine List.forall₂_iff_zip.2 ⟨copies.length_eq, fun {c y} both => ?_⟩
  obtain ⟨hc, hy⟩ := List.of_mem_zip both
  rw [childrenOf_eq live] at hy
  obtain ⟨f, live', kind, -⟩ := wf.listed id e _ y live hy
  exact ⟨h.taken.child wfs c hc, unmarked hc, isSection_iff.2 ⟨f, live', kind⟩, _,
    (List.forall₂_iff_zip.1 copies).2 both⟩

end CopyOf

/-- Nothing stands below an attribute. -/
lemma lists_of_attribute {conf : Configuration} (wf : conf.WellFormed) {a x : NodeId}
    (h : x ∈ conf.attributesOf a) : conf.attributesOf x = [] ∧ conf.childrenOf x = [] := by
  cases owner : conf.live? a with
  | none => simp [attributesOf, owner] at h
  | some d =>
    rw [attributesOf_eq owner] at h
    obtain ⟨e, live, kind, -⟩ := wf.listed a d _ x owner h
    rw [attributesOf_eq live, childrenOf_eq live]
    exact ⟨NodeData.entries_of_attribute kind _, NodeData.entries_of_attribute kind _⟩

/-- Two nodes are counterparts in a script and its copy if they are a section and its copy, or two
attributes of which the second has the value of the first. -/
lemma Counterpart.copied {result : Configuration} {a b : NodeId}
    (h : Counterpart source result a b) (wfs : source.WellFormed) (wf : result.WellFormed)
    (top : CopyOf process source result (source.subtree root) root) :
    (∃ t, t.id = a ∧ CopyOf process source result t b) ∨
      (Evaluated process source result a b ∧
        (source.attributesOf a = [] ∧ source.childrenOf a = []) ∧
        result.attributesOf b = [] ∧ result.childrenOf b = []) := by
  induction h with
  | roots => exact .inl ⟨_, source.id_subtree root, top⟩
  | @attributes a b x y _ both ih =>
    obtain ⟨hx, hy⟩ := List.of_mem_zip both
    obtain ⟨t, rfl, copy⟩ | ⟨-, ⟨nothing, -⟩, -⟩ := ih
    · exact .inr ⟨(List.forall₂_iff_zip.1 (copy.attributes wfs wf)).2 both,
        lists_of_attribute wfs hx, lists_of_attribute wf hy⟩
    · rw [nothing] at hx
      cases hx
  | @children a b x y _ both ih =>
    obtain ⟨t, rfl, copy⟩ | ⟨-, ⟨-, nothing⟩, -⟩ := ih
    · rw [← copy.taken.map_id_children wfs, List.zip_map_left] at both
      obtain ⟨⟨c, y'⟩, pair, eq⟩ := List.mem_map.1 both
      cases eq
      exact .inl ⟨c, rfl, (List.forall₂_iff_zip.1 (copy.children wfs wf)).2 pair⟩
    · rw [nothing] at both
      cases both

/-- A script that has no instructions and no sections for scripts only, and that runs to a good end,
is left as it is, and each of its nodes has a counterpart in the result, which has its value as the
verbatim one. If that value holds no reference, then it is also the value of the counterpart. -/
theorem execute_reread (process process' : Host) {limits : Limits}
    {source result : Configuration} {p : Progress} (hs : Reachable source) (hr : Reachable result)
    (run : execute process limits source result = (.ok (), p))
    (uncontrolled : Uncontrolled (source.shape root).descendants)
    (unmarked : Unmarked (source.shape root)) :
    p.source = source ∧ ∀ a b, Counterpart source p.result a b →
      (source.attributesOf a).length = (p.result.attributesOf b).length ∧
      (source.childrenOf a).length = (p.result.childrenOf b).length ∧
      ∃ value, source.value? process a = .ok value ∧ p.result.verbatim? b = value ∧
        ((∀ text ∈ value, hasReference text.toList = false) →
          p.result.value? process' b = .ok value) := by
  obtain ⟨log, executes⟩ := execute_executes process limits source result
  rw [run] at executes
  have wfs := hs.wellFormed
  have wf := (executes.output wfs hr.wellFormed).1
  obtain ⟨same, copy⟩ := executes.copy wfs hr.wellFormed uncontrolled unmarked
  obtain ⟨d, live, sec, -⟩ := wfs.root
  obtain ⟨e, live', sec', -⟩ := wf.root
  have top : CopyOf process source p.result (source.subtree root) root :=
    ⟨takenFrom_subtree live sec, unmarked, isSection_iff.2 ⟨e, live', sec'⟩, root, copy⟩
  refine ⟨same, fun a b counterpart => ?_⟩
  have literal : (∀ text ∈ p.result.verbatim? b, hasReference text.toList = false) →
      p.result.value? process' b = .ok (p.result.verbatim? b) :=
    fun plain => value?_literal plain process'
  obtain ⟨t, rfl, copied⟩ | ⟨evaluated, ⟨attributes, children⟩, attributes', children'⟩ :=
    counterpart.copied wfs wf top
  · refine ⟨(copied.attributes wfs wf).length_eq, ?_, _, (copied.parts wf).1, rfl, literal⟩
    rw [← copied.taken.map_id_children wfs, List.length_map]
    exact (copied.children wfs wf).length_eq
  · rw [attributes, children, attributes', children']
    exact ⟨rfl, rfl, _, evaluated, rfl, literal⟩

/-- The value of a nested attribute is a reference in the script, and stands in its result as it
is. -/
theorem execute_reread_port :
    let process : Host := ⟨[("HOST", "here")], .epoch⟩
    let source := (withRoot "host").operateAll
      [(.bare, .addAttribute 0 "port" (some "80")),
       (.bare, .addSection 0 "listen" (some "$(~HOST)")),
        (.bare, .addAttribute 2 "Kept" (some "$(/$port)0"))]
    let result := (withRoot "old").operateAll [(.bare, .addSection 0 "gone" none)]
    let p := (execute process ⟨9, 2⟩ source result).2
    Reachable source ∧ Reachable result ∧
      (execute process ⟨9, 2⟩ source result).1 = .ok () ∧
      Uncontrolled (source.shape root).descendants ∧ Unmarked (source.shape root) ∧
      p.source = source ∧ Counterpart source p.result 3 4 ∧
      source.value? process 3 = .ok (some "800") ∧ p.result.verbatim? 4 = some "800" ∧
      p.result.value? .bare 4 = .ok (some "800") := by
  intro process source result p
  have hs : Reachable source :=
    (Reachable.withRoot "host").operateAll _ (by simp [Operation.others])
  have hr : Reachable result :=
    (Reachable.withRoot "old").operateAll _ (by simp [Operation.others])
  have ok : (execute process ⟨9, 2⟩ source result).1 = .ok () := by decide +kernel
  have run : execute process ⟨9, 2⟩ source result = (.ok (), p) := Prod.ext ok rfl
  have uncontrolled : Uncontrolled (source.shape root).descendants := by decide +kernel
  have unmarked : Unmarked (source.shape root) := by decide +kernel
  have listen : Counterpart source p.result 2 3 := .children .roots (by decide +kernel)
  have kept : Counterpart source p.result 3 4 := .attributes listen (by decide +kernel)
  obtain ⟨same, counterparts⟩ := execute_reread process .bare hs hr run uncontrolled unmarked
  obtain ⟨-, -, value, valued, verbatim, literal⟩ := counterparts 3 4 kept
  have known : source.value? process 3 = .ok (some "800") := by decide +kernel
  cases known.symm.trans valued
  exact ⟨hs, hr, ok, uncontrolled, unmarked, same, kept, known, verbatim, literal (by decide)⟩

/-- The text of an escape is a reference in the result, and so is the text of a variable that looks
like one. -/
theorem not_execute_reread_escape :
    let process : Host := ⟨[("PRICE", "$(5)")], .epoch⟩
    let source := ((withRoot "base").addNode .attributeKind root "x"
      (some "use $(###)/path) literally")).addNode .attributeKind root "y" (some "$(~PRICE)")
    let result := withRoot "result"
    let p := (execute process ⟨9, 2⟩ source result).2
    (execute process ⟨9, 2⟩ source result).1 = .ok () ∧
      Uncontrolled (source.shape root).descendants ∧ Unmarked (source.shape root) ∧
      result.environment = source.environment ∧ result.provider = source.provider ∧
      Counterpart source p.result 1 1 ∧ Counterpart source p.result 2 2 ∧
      source.value? process 1 = .ok (some "use $(/path) literally") ∧
      p.result.value? process 1 = .ok (some "use  literally") ∧
      source.value? process 2 = .ok (some "$(5)") ∧
      p.result.value? process 2 = .ok (some "") := by
  intro process source result p
  have x : Counterpart source p.result 1 1 := .attributes .roots (by decide +kernel)
  have y : Counterpart source p.result 2 2 := .attributes .roots (by decide +kernel)
  exact ⟨by decide +kernel, by decide +kernel, by decide +kernel, rfl, rfl, x, y, by decide +kernel,
    by decide +kernel, by decide +kernel, by decide +kernel⟩

end ConfTree.Script
