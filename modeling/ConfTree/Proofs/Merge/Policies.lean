import ConfTree.Proofs.Merge.Calls

/-!
# What the policies confine

A merge that meets a section does what the policy of the section lets it do and no more: its child
sections stay, its value and its attributes stay, it becomes a copy, or the whole merge ends with an
error (`overrideBy_confined`). A section that is not met, with none above it that is replaced, keeps
its value and its attributes.
-/

namespace ConfTree

open ConfTree.Configuration

namespace Configuration

variable {conf conf' conf'' : Configuration} {s : Nat} {d : NodeData}

namespace KeepsChildren

/-- A section below which all stays keeps its child sections. -/
lemma of_sameBelow (wf : conf.WellFormed) (same : SameBelow s conf conf')
    (h : conf.live? s = some d) : KeepsChildren s conf conf' := by
  refine ⟨?_, fun c hc => same.of_below ?_⟩
  · rw [childrenOf, childrenOf, same s .self]
  · rw [childrenOf_eq h] at hc
    exact .of_mem_entries wf h hc

/-- Child sections that are kept twice are kept. -/
lemma trans (keeps : KeepsChildren s conf conf') (keeps' : KeepsChildren s conf' conf'') :
    KeepsChildren s conf conf'' :=
  ⟨keeps'.children.trans keeps.children, fun c hc =>
    (keeps.same c hc).trans (keeps'.same c (keeps.children ▸ hc))⟩

end KeepsChildren

/-- The section is a copy of another one under the name that it had, and all that lay below it is
dead. -/
structure Replaced (s : Nat) (u : Shape) (before after : Configuration) : Prop where
  live : after.isSection s = true
  shape : after.shape s = .mk (before.nameOf s) u.value u.attributes u.children
  dead : ∀ x, before.Below s x → x ≠ s → after.live? x = none

end Configuration

namespace Edit

variable {process : Host} {rules : Rules} {source conf mid : Configuration} {target s : Nat}
  {t u : Subtree} {d : NodeData}

/-! ## One section -/

/-- A section that is replaced is a copy, and the old nodes below it are dead. -/
lemma replaced_replaceBy (wf : conf.WellFormed) (writable : conf.readOnly = false)
    (h : conf.live? target = some d) (sec : d.kind = .sectionKind) (named : t.Named) :
    ((replaceBy target t).apply conf).1 = .ok () ∧
      Replaced target t.shape conf ((replaceBy target t).apply conf).2 := by
  obtain ⟨conf', run, confined, shape⟩ := replaceBy_spec wf writable h sec named
  obtain ⟨e, he, kind, -⟩ := confined.kept d h
  have rest : Makes Change (setValue target t.value >>= fun _ => copyContent target t) :=
    .bind (.setValue _ _) fun _ => .copyContent _ _
  have run' : (setValue target t.value >>= fun _ => copyContent target t).apply
      (conf.emptyNode target) = (.ok (), conf') :=
    (apply_bind_ok (apply_clear writable h sec)).symm.trans run
  have evolves := Evolves.changes (rest.of_run run')
  rw [run]
  refine ⟨rfl, isSection_iff.2 ⟨e, he, kind.trans sec⟩, ?_, fun x hb hne => ?_⟩
  · rw [shape, nameOf, h]
    rfl
  · -- The node was buried when the section was emptied.
    obtain ⟨f, hf⟩ := hb.live h
    obtain ⟨g, hg, -⟩ :=
      Evolves.changes (.single (.empty writable h sec)) x f (live?_eq_some.1 hf).1
    exact evolves.dead (Array.getElem?_eq_some_iff.1 hg).1 ((wf.live?_emptyNode h x).1 ⟨hb, hne⟩)

/-- By the policy to replace a section is replaced. -/
lemma apply_mergeSection_replace (h : conf.policyOf process rules target = .ok .replace) :
    (mergeSection process rules source target t).apply conf = (replaceBy target t).apply conf := by
  obtain ⟨_, _, _, _, _⟩ := t
  rw [mergeSection, apply_bind, apply_look, h]

/-- By the policy to fail the merge stops at the section. -/
lemma apply_mergeSection_fail (h : conf.policyOf process rules target = .ok .fail) :
    (mergeSection process rules source target t).apply conf =
      (.error (.mergeConflict (conf.rootPath target) rules.policyAttribute), conf) := by
  obtain ⟨_, _, _, _, _⟩ := t
  rw [mergeSection, apply_bind, apply_look, h]
  dsimp only
  rw [apply_look]

/-- In a frozen configuration nothing is replaced. -/
lemma apply_replaceBy_frozen (frozen : conf.readOnly = true) :
    (replaceBy target t).apply conf = (.error .readOnly, conf) := by
  have cleared : (clear target).apply conf = (.error .readOnly, conf) := by
    refine apply_checked_error ?_
    rw [checkWritable, frozen]
    rfl
  rw [replaceBy, apply_bind, cleared]

/-- A merge into a section with the policy `attributes` leaves the child sections. -/
lemma keepsChildren_mergeSection (wf : conf.WellFormed) (hd : conf.live? target = some d)
    (h : conf.policyOf process rules target = .ok .attributes) :
    KeepsChildren target conf ((mergeSection process rules source target t).apply conf).2 := by
  obtain ⟨_, _, value, attributes, _⟩ := t
  rw [mergeSection, apply_bind, apply_look, h]
  exact keepsChildren_mergeOwn wf hd value attributes

/-- A merge into a section with the policy `sections` leaves the value and the attributes. -/
lemma keepsOwn_mergeSection (wf : conf.WellFormed) (writable : conf.readOnly = false)
    (hd : conf.live? target = some d) (sec : d.kind = .sectionKind) (named : t.Named)
    (h : conf.policyOf process rules target = .ok .sections) :
    KeepsOwn target conf ((mergeSection process rules source target t).apply conf).2 := by
  obtain ⟨_, _, _, _, children⟩ := t
  rw [apply_mergeSection_sections h]
  exact keepsOwn_mergeSections named.2.2 wf writable hd sec

/-! ## Frozen configurations -/

mutual

/-- A merge meets the sections of a frozen configuration as they are. -/
lemma Meets.frozen (wfs : source.WellFormed) (wf : conf.WellFormed)
    (frozen : conf.readOnly = true) :
    ∀ {t : Subtree} {target : Nat}, TakenFrom source t → conf.isSection target = true →
      Literal rules (conf.shape target) → Meets process rules source conf target t mid s u →
      mid = conf ∧ conf.isSection s = true ∧ Literal rules (conf.shape s) ∧ TakenFrom source u
  | .mk _ _ value attributes _, target, taken, sec, literal, meets => by
    cases meets with
    | self => exact ⟨rfl, sec, literal, taken⟩
    | sections _ among => exact among.frozen wfs wf frozen (taken.child wfs) sec literal
    | all _ run₁ run₂ among =>
      rw [(Makes.mergeValue target value).frozen frozen run₁] at run₂
      rw [(Makes.mergeAttributes target [] attributes).frozen frozen run₂] at among
      exact among.frozen wfs wf frozen (taken.child wfs) sec literal

/-- Up to where sections meet, nothing changes in a frozen configuration. -/
lemma MeetsAmong.frozen (wfs : source.WellFormed) (wf : conf.WellFormed)
    (frozen : conf.readOnly = true) : ∀ {ts : List Subtree} {target : Nat},
      (∀ t ∈ ts, TakenFrom source t) → conf.isSection target = true →
      Literal rules (conf.shape target) → MeetsAmong process rules source conf target ts mid s u →
      mid = conf ∧ conf.isSection s = true ∧ Literal rules (conf.shape s) ∧ TakenFrom source u
  | [], _, _, _, _, among => nomatch among
  | t :: ts, target, taken, sec, literal, among => by
    cases among with
    | first found meets =>
      obtain ⟨d, hd, -⟩ := isSection_iff.1 sec
      obtain ⟨hc, e, live, kind⟩ := live_of_matchOf wf hd found
      refine meets.frozen wfs wf frozen (taken t List.mem_cons_self)
        (isSection_iff.2 ⟨e, live, kind⟩) ((literal_iff.1 literal).2 _ ?_)
      rw [shape_eq wf hd]
      exact List.mem_map_of_mem hc
    | next run among =>
      rw [(Makes.mergeNext process rules source target t).frozen frozen run] at among
      exact among.frozen wfs wf frozen (fun x hx => taken x (List.mem_cons_of_mem _ hx)) sec literal

end

end Edit

/-! ## Whole merges -/

namespace Edit

/-- What comes of a merge into a section, by the policy of the section. -/
structure Confines (rules : Rules) (a b : Configuration) (s : NodeId) (u : Subtree)
    (out : Except ConfigError Unit) (c : Configuration) : Prop where
  /-- A section is merged into a section. -/
  sections : a.isSection s = true ∧ b.isSection u.id = true ∧ u = b.subtree u.id
  attributesOnly : (a.shape s).policy? rules = some .attributes → KeepsChildren s a c
  sectionsOnly : (a.shape s).policy? rules = some .sections → KeepsOwn s a c
  replace : (a.shape s).policy? rules = some .replace → a.readOnly = false →
    Replaced s (b.shape u.id) a c
  /-- A frozen section cannot be replaced. -/
  refuse : (a.shape s).policy? rules = some .replace → a.readOnly = true →
    out = .error .readOnly ∧ c = a
  fail : (a.shape s).policy? rules = some .fail →
    out = .error (.mergeConflict (c.rootPath s) rules.policyAttribute) ∧ SameBelow s a c

variable {process : Host} {rules : Rules} {a b c mid : Configuration} {s : Nat}
  {t u : Subtree} {out : Except ConfigError Unit} {target : Nat}

/-- A section of a writable configuration is confined. -/
lemma Meets.confines (wfb : b.WellFormed) (appends : rules.appends = false)
    (h : Mergeable rules b a target t) (meets : Meets process rules b a target t mid s u)
    (run : (mergeSection process rules b target t).apply a = (out, c)) :
    Confines rules a b s u out c := by
  obtain ⟨below, before, inner⟩ := meets.before wfb appends h
  obtain ⟨after, evolves⟩ := meets.after wfb appends h
  obtain ⟨d, hd, sec⟩ := inner.live
  obtain ⟨whole, e, he, sec'⟩ := inner.taken
  have wfm := inner.wellFormed
  have named := inner.taken.named wfb
  have old : a.live? s = some d := (before s .self).symm.trans hd
  have shape : mid.shape s = a.shape s := before.shape_eq h.wellFormed wfm old
  have shape' : b.shape u.id = u.shape := by rw [Configuration.shape, ← whole]
  have policyOf : ∀ {p}, (a.shape s).policy? rules = some p →
      mid.policyOf process rules s = .ok p := by
    intro p declared
    rw [← shape] at declared
    exact (policyOf_literal process wfm hd (literal_iff.1 inner.literal).1).2 declared
  have confined := confined_mergeSection process rules b u named wfm
    inner.writable hd sec
  have whole' := confined_mergeSection process rules b t
    (h.taken.named wfb) h.wellFormed h.writable h.live.choose_spec.1 h.live.choose_spec.2
  obtain ⟨f, hf, kind, -⟩ := confined.kept d hd
  rw [run] at after evolves whole'
  have last := (after s .self).trans hf
  constructor
  case sections => exact ⟨isSection_iff.2 ⟨d, old, sec⟩, isSection_iff.2 ⟨e, he, sec'⟩, whole⟩
  case attributesOnly =>
    intro declared
    exact ((KeepsChildren.of_sameBelow h.wellFormed before old).trans
      (keepsChildren_mergeSection wfm hd (policyOf declared))).trans
      (.of_sameBelow confined.wellFormed after hf)
  case sectionsOnly =>
    intro declared
    exact ((KeepsOwn.of_sameBelow h.wellFormed before old).trans
      (keepsOwn_mergeSection wfm inner.writable hd sec named (policyOf declared))).trans
      (.of_sameBelow confined.wellFormed after hf)
  case replace =>
    intro declared _
    have replaced := (replaced_replaceBy wfm inner.writable hd sec named).2
    rw [← apply_mergeSection_replace (policyOf declared)] at replaced
    refine ⟨isSection_iff.2 ⟨f, last, kind.trans sec⟩, ?_, fun x hb hne => ?_⟩
    · rw [after.shape_eq confined.wellFormed whole'.wellFormed hf, replaced.shape, shape', nameOf,
        nameOf, hd, old]
    · obtain ⟨g, hg⟩ := (before.below hb).live hd
      have makes := Makes.mergeSection process rules b s u mid
      obtain ⟨k, hk, -⟩ := Evolves.changes makes x g (live?_eq_some.1 hg).1
      exact evolves.dead (Array.getElem?_eq_some_iff.1 hk).1
        (replaced.dead x (before.below hb) hne)
  case refuse =>
    intro _ frozen
    rw [h.writable] at frozen
    cases frozen
  case fail =>
    intro declared
    have failed := meets.error (apply_mergeSection_fail (policyOf declared))
    rw [run] at failed
    cases failed
    exact ⟨rfl, before⟩

end Edit

namespace Configuration

variable {process : Host} {rules : Rules} {a b c : Configuration}
  {out : Except ConfigError Unit}

/-- A section of a frozen configuration is confined, as nothing changes at all. -/
lemma confines_frozen (frozen : a.readOnly = true) {t u : Subtree} {mid : Configuration}
    {target s : Nat} (wfa : a.WellFormed) (wfb : b.WellFormed) (taken : TakenFrom b t)
    (sec : a.isSection target = true) (literal : Literal rules (a.shape target))
    (meets : Edit.Meets process rules b a target t mid s u)
    (run : (Edit.mergeSection process rules b target t).apply a = (out, c)) :
    Edit.Confines rules a b s u out c := by
  obtain ⟨rfl, live, literal', whole, e, he, sec'⟩ :=
    meets.frozen wfb wfa frozen taken sec literal
  have same := (Edit.Makes.mergeSection process rules b target t).frozen frozen run
  subst same
  obtain ⟨d, hd, -⟩ := isSection_iff.1 live
  have policyOf : ∀ {p}, (c.shape s).policy? rules = some p → c.policyOf process rules s = .ok p :=
    (policyOf_literal process wfa hd (literal_iff.1 literal').1).2
  constructor
  case sections => exact ⟨live, isSection_iff.2 ⟨e, he, sec'⟩, whole⟩
  case attributesOnly => exact fun _ => ⟨rfl, fun _ _ => .refl⟩
  case sectionsOnly => exact fun _ => .refl
  case replace =>
    intro _ writable
    rw [frozen] at writable
    cases writable
  case refuse =>
    intro declared _
    have refused := meets.error ((Edit.apply_mergeSection_replace (policyOf declared)).trans
      (Edit.apply_replaceBy_frozen frozen))
    rw [run] at refused
    cases refused
    exact ⟨rfl, rfl⟩
  case fail =>
    intro declared
    have failed := meets.error (Edit.apply_mergeSection_fail (policyOf declared))
    rw [run] at failed
    cases failed
    exact ⟨rfl, .refl⟩

/-- Every section that a merge of a well-keyed layer meets is confined by its policy, and a section
that is not met and does not lie below one that is replaced keeps its value and its attributes. -/
theorem overrideBy_confined (ha : Reachable a) (hb : Reachable b) (appends : rules.appends = false)
    (wellKeyed : WellKeyed rules (b.shape root)) (literalA : Literal rules (a.shape root))
    (literalB : Literal rules (b.shape root))
    (run : (Edit.overrideBy process rules b).apply a = (out, c)) :
    (∀ mid s u, Edit.Meets process rules b a root (b.subtree root) mid s u →
      Edit.Confines rules a b s u out c) ∧
    ∀ s, a.isSection s = true →
      (∀ mid u, ¬ Edit.Meets process rules b a root (b.subtree root) mid s u) →
      (∀ p, a.Below p s → p ≠ s → (a.shape p).policy? rules = some .replace →
        ∀ mid u, ¬ Edit.Meets process rules b a root (b.subtree root) mid p u) →
      KeepsOwn s a c := by
  have wfa := ha.wellFormed
  have wfb := hb.wellFormed
  obtain ⟨d, h, sec, -⟩ := wfa.root
  obtain ⟨e, h', sec', -⟩ := wfb.root
  have taken := takenFrom_subtree h' sec'
  rw [overrideBy_apply process wfb h sec] at run
  cases access : a.readOnly with
  | true =>
    refine ⟨fun mid s u meets => confines_frozen access wfa wfb taken (isSection_iff.2 ⟨d, h, sec⟩)
      literalA meets run, fun s _ _ _ => ?_⟩
    rw [(Edit.Makes.mergeSection process rules b root (b.subtree root)).frozen access run]
    exact .refl
  | false =>
    have mergeable : Edit.Mergeable rules b a root (b.subtree root) :=
      ⟨wfa, access, ⟨d, h, sec⟩, taken, wellKeyed, literalA, literalB⟩
    refine ⟨fun mid s u meets => meets.confines wfb appends mergeable run,
      fun s live unmet aside => ?_⟩
    obtain ⟨sd, hs, kind⟩ := isSection_iff.1 live
    have either := Edit.keepsOwn_or_touched process rules b (b.subtree root) (taken.named wfb) wfa
      access h sec hs kind
    rw [run] at either
    refine either.resolve_right ?_
    rintro ⟨mid, p, u, meets, below, here⟩
    by_cases hne : p = s
    · subst hne
      exact unmet mid u meets
    · -- The section above is as it was until it is met, so it declared its policy from the start.
      obtain ⟨-, before, inner⟩ := meets.before wfb appends mergeable
      obtain ⟨pd, hp, -⟩ := inner.live
      have declared := (policyOf_literal process inner.wellFormed hp
        (literal_iff.1 inner.literal).1).1 (here.resolve_left hne)
      rw [before.shape_eq wfa inner.wellFormed ((before p .self).symm.trans hp)] at declared
      exact aside p ((before.below_iff wfa inner.wellFormed).1 below) hne declared mid u meets

/-- A layer that replaces one section and is refused by the next one. -/
theorem overrideBy_confined_sample :
    let a := (withRoot "base").operateAll
      [(.bare, .addSection 0 "log" (some "old")),
       (.bare, .addAttribute 1 "_override" (some " Replace ")),
        (.bare, .addSection 1 "file" none), (.bare, .addSection 0 "lock" none),
        (.bare, .addAttribute 4 "_override" (some "fail"))]
    let b := (withRoot "layer").operateAll
      [(.bare, .addSection 0 "LOG" (some "new")), (.bare, .addSection 1 "console" none),
        (.bare, .addSection 0 "lock" none)]
    ∃ c, Replaced 1 (b.shape 1) a c ∧ c.live? 3 = none ∧
      (Edit.overrideBy .bare .standard b).apply a =
        (.error (.mergeConflict (c.rootPath 4) "_override"), c) := by
  intro a b
  have ha : Reachable a := (Reachable.withRoot "base").operateAll _ (by simp [Operation.others])
  have hb : Reachable b := (Reachable.withRoot "layer").operateAll _ (by simp [Operation.others])
  have wellKeyed : WellKeyed .standard (b.shape root) := by decide +kernel
  have literalA : Literal .standard (a.shape root) := by decide +kernel
  have literalB : Literal .standard (b.shape root) := by decide +kernel
  obtain ⟨⟨out, c⟩, run⟩ : ∃ r, (Edit.overrideBy .bare .standard b).apply a = r := ⟨_, rfl⟩
  obtain ⟨met, -⟩ := overrideBy_confined ha hb rfl wellKeyed literalA literalB run
  -- The root of the layer has two child sections, which are met one after the other.
  have live : b.live? root = some ⟨"layer", none, none, .lists #[1, 3] #[], true, false⟩ := by
    decide +kernel
  have parts : b.subtree root = .mk root "layer" none [] [b.subtree 1, b.subtree 3] :=
    subtree_eq hb.wellFormed live
  have policy : a.policyOf .bare .standard root = .ok .all := by decide +kernel
  have value : (Edit.mergeValue root none).apply a = (.ok (), a) := rfl
  have attributes : (Edit.mergeAttributes root [] []).apply a = (.ok (), a) := rfl
  have first :
      a.matchOf .bare .standard b root (b.subtree 1).id (b.subtree 1).name = .ok (some 1) := by
    decide +kernel
  have ok : ((Edit.mergeNext .bare .standard b root (b.subtree 1)).apply a).1 = .ok () := by
    decide +kernel
  obtain ⟨mid, next, second⟩ : ∃ mid : Configuration,
      (Edit.mergeNext .bare .standard b root (b.subtree 1)).apply a = (.ok (), mid) ∧
        mid.matchOf .bare .standard b root (b.subtree 3).id (b.subtree 3).name = .ok (some 4) :=
    ⟨_, Prod.ext ok rfl, by decide +kernel⟩
  have log : Edit.Meets .bare .standard b a root (b.subtree root) a 1 (b.subtree 1) := by
    rw [parts]
    exact .all policy value attributes (.first first .self)
  have lock : Edit.Meets .bare .standard b a root (b.subtree root) mid 4 (b.subtree 3) := by
    rw [parts]
    exact .all policy value attributes (.next next (.first second .self))
  have replaced := (met _ _ _ log).replace (by decide +kernel) (by decide +kernel)
  obtain ⟨failed, -⟩ := (met _ _ _ lock).fail (by decide +kernel)
  have same : (b.subtree 1).id = 1 := by decide +kernel
  rw [same] at replaced
  rw [failed] at run
  have old : a.live? 3 = some ⟨"file", none, some 1, .lists #[] #[], true, false⟩ := by
    decide +kernel
  exact ⟨c, replaced, replaced.dead 3 (.step old rfl .self) (by decide), run⟩

/-- A frozen section is not replaced, though its policy says so: the merge is refused. -/
theorem not_replaced_frozen :
    let a := (withRoot "base").operateAll
      [(.bare, .addSection 0 "log" (some "old")),
       (.bare, .addAttribute 1 "_override" (some "replace")),
        (.bare, .addSection 1 "file" none), (.bare, .freeze)]
    let b := (withRoot "layer").operateAll
      [(.bare, .addSection 0 "log" (some "new")), (.bare, .addSection 1 "console" none)]
    Reachable a ∧ Reachable b ∧ WellKeyed .standard (b.shape root) ∧
      Literal .standard (a.shape root) ∧ Literal .standard (b.shape root) ∧
      Edit.Meets .bare .standard b a root (b.subtree root) a 1 (b.subtree 1) ∧
      (a.shape 1).policy? .standard = some .replace ∧
      (Edit.overrideBy .bare .standard b).apply a = (.error .readOnly, a) ∧
      ¬ Replaced 1 (b.subtree 1).shape a a := by
  intro a b
  have ha : Reachable a := (Reachable.withRoot "base").operateAll _ (by simp [Operation.others])
  have hb : Reachable b := (Reachable.withRoot "layer").operateAll _ (by simp [Operation.others])
  have frozen : a.readOnly = true := by decide +kernel
  have live : b.live? root = some ⟨"layer", none, none, .lists #[1] #[], true, false⟩ := by
    decide +kernel
  have parts : b.subtree root = .mk root "layer" none [] [b.subtree 1] :=
    subtree_eq hb.wellFormed live
  have policy : a.policyOf .bare .standard root = .ok .all := by decide +kernel
  have first :
      a.matchOf .bare .standard b root (b.subtree 1).id (b.subtree 1).name = .ok (some 1) := by
    decide +kernel
  have refused : ((Edit.overrideBy .bare .standard b).apply a).1 = .error .readOnly := by
    decide +kernel
  have same : ((Edit.overrideBy .bare .standard b).apply a).2 = a :=
    (Edit.Makes.overrideBy .bare .standard b).frozen frozen (Prod.ext refused rfl)
  have old : a.live? 3 = some ⟨"file", none, some 1, .lists #[] #[], true, false⟩ := by
    decide +kernel
  refine ⟨ha, hb, by decide +kernel, by decide +kernel, by decide +kernel, ?_, by decide +kernel,
    Prod.ext refused same, fun replaced => ?_⟩
  · have value : (Edit.mergeValue root none).apply a = (.ok (), a) := rfl
    have attributes : (Edit.mergeAttributes root [] []).apply a = (.ok (), a) := rfl
    rw [parts]
    exact .all policy value attributes (.first first .self)
  · have dead := replaced.dead 3 (.step old rfl .self) (by decide)
    rw [old] at dead
    cases dead

end Configuration

end ConfTree
