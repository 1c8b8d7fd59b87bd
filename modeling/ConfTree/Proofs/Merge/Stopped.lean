import ConfTree.Proofs.Merge.Guarded
import ConfTree.Proofs.Operation.Reachable

/-!
# Stopped sections

A section with the policy `stop` is untouchable: a merge into it does nothing, and a merge into
another section, however it ends, leaves it guarded as long as no section above it has the policy
`replace` and the source declares no policies (`keeps_mergeSection`). So it stays as it is whatever
layers are merged (`stopped_untouched`).
-/

namespace ConfTree

open ConfTree.Configuration ConfTree.Text

/-- The section has the policy `stop`, and no merge can replace a section above it. -/
structure Stopped (rules : Rules) (a : Configuration) (s : Nat) : Prop where
  wellFormed : a.WellFormed
  live : ∃ d, a.live? s = some d ∧ d.kind = .sectionKind
  /-- The values of policy attributes have no references. -/
  literal : ∀ (x : Nat) d, a.live? x = some d → d.kind = .attributeKind →
    sameName d.name rules.policyName = true → ∀ v ∈ d.value, hasReference v.toList = false
  stop : (a.shape s).policy? rules = some .stop
  above : ∀ p, a.Below p s → p ≠ s → (a.shape p).policy? rules ≠ some .replace

variable {rules rules' : Rules} {a conf source : Configuration} {s target : Nat}
  {process : Host}

/-! ## Policies -/

namespace Configuration

/-- Blanks around a name do not count when it is looked up. -/
lemma attribute?_of_trim_eq {p : Nat} {name name' : String} (h : trim name' = trim name) :
    conf.attribute? p name' = conf.attribute? p name := by
  rw [attribute?, attribute?]
  simp only [isNamed, h]

/-- Where the policy attribute is the same node with the same value, the policy is the same. -/
lemma policyOf_of_same (stopped : Stopped rules a s) (names : rules'.policyName = rules.policyName)
    {p : Nat} {d : NodeData} (hp : a.live? p = some d)
    (same : conf.attribute? p rules.policyAttribute = a.attribute? p rules.policyAttribute)
    (kept : ∀ x, a.attribute? p rules.policyAttribute = some x → conf.live? x = a.live? x)
    {policy : Policy} : conf.policyOf process rules' p = .ok policy ↔
      (a.shape p).policy? rules = some policy := by
  have policies : (a.shape p).policy? rules' = (a.shape p).policy? rules := by
    rw [Shape.policy?, Shape.policy?, names]
  rw [← policies]
  refine policyOf_of_key ?_
  rw [attribute?_of_trim_eq names, same, names, Shape.key?,
    show rules.policyName = trim rules.policyAttribute from rfl,
    ← attribute?_map stopped.wellFormed hp]
  cases ha : a.attribute? p rules.policyAttribute with
  | none => rfl
  | some x =>
    obtain ⟨e, he, kind, -, named⟩ := live_attribute? stopped.wellFormed ha
    have value : conf.verbatim? x = a.verbatim? x := by rw [verbatim?, verbatim?, kept x ha]
    have literal : ∀ v ∈ conf.verbatim? x, hasReference v.toList = false := by
      rw [value, verbatim?, he]
      exact stopped.literal x e he kind named
    exact (value?_literal literal process).trans (congrArg Except.ok value)

/-- A section above a guarded one has the policy that it had. -/
lemma Guarded.policyOf_iff (stopped : Stopped rules a s) (guarded : a.Guarded rules s conf)
    (names : rules'.policyName = rules.policyName) {p : Nat} (above : a.Below p s)
    {policy : Policy} : conf.policyOf process rules' p = .ok policy ↔
      (a.shape p).policy? rules = some policy := by
  obtain ⟨sd, hs, -⟩ := stopped.live
  obtain ⟨d, hp⟩ := above.live_top stopped.wellFormed hs
  obtain ⟨-, -, -, -, same⟩ := guarded.above p d above hp
  exact policyOf_of_same stopped names hp same fun x hx => guarded.frozen x (.inr ⟨p, above, hx⟩)

end Configuration

/-! ## Edits beside a stopped section -/

/-- The attribute does not become a policy attribute when it is stored. -/
def Foreign (rules : Rules) (a : String × Option String) : Prop :=
  sameName (trim a.1) rules.policyName = false

namespace Edit

/-- Appending outside of what is frozen keeps the section guarded. -/
lemma keeps_append (stopped : Stopped rules a s) {kind : Kind} {name : String}
    (value : Option String) (out : ¬ a.Frozen rules s target)
    (foreign : kind = .attributeKind → sameName (trim name) rules.policyName = false) :
    Keeps (a.Guarded rules s) (append kind target name value) fun id => ¬ a.Frozen rules s id := by
  obtain ⟨sd, hs, -⟩ := stopped.live
  refine .checked fun conf stored guarded h => ?_
  obtain ⟨-, rfl, good, td, ht, sec⟩ := appendable_iff.1 h
  refine ⟨guarded.addNode stopped.wellFormed hs value ht sec good out foreign, fun frozen => ?_⟩
  exact Nat.lt_irrefl _ (guarded.lt_size stopped.wellFormed hs frozen)

/-- Setting a value outside of what is frozen keeps the section guarded. -/
lemma keeps_setValue (value : Option String) (out : ¬ a.Frozen rules s target) :
    Keeps (a.Guarded rules s) (setValue target value) fun _ => True :=
  .checked fun _ _ guarded _ => ⟨guarded.replaceValue value out, trivial⟩

/-- Clearing what does not hold the section keeps it guarded. -/
lemma keeps_clear (stopped : Stopped rules a s) (out : ¬ a.Frozen rules s target)
    (aside : ¬ a.Below target s) :
    Keeps (a.Guarded rules s) (clear target) fun _ => True := by
  obtain ⟨sd, hs, -⟩ := stopped.live
  refine .checked fun conf _ guarded h => ⟨?_, trivial⟩
  obtain ⟨-, -, h⟩ := bind_eq_ok h
  obtain ⟨td, ht, -⟩ := bind_eq_ok h
  obtain ⟨ht, sec⟩ := requireSection_ok.1 ht
  exact guarded.emptyNode stopped.wellFormed hs ht sec out aside

/-- Copying attributes that declare no policy keeps the section guarded. -/
lemma keeps_copyAttributes (stopped : Stopped rules a s) (out : ¬ a.Frozen rules s target)
    {attributes : List Attribute}
    (foreign : ∀ b ∈ attributes.map Attribute.pair, Foreign rules b) :
    Keeps (a.Guarded rules s) (copyAttributes target attributes) fun _ => True := by
  induction attributes with
  | nil => exact .pure trivial
  | cons b attributes ih =>
    have first := foreign _ List.mem_cons_self
    rw [copyAttributes]
    exact .bind (keeps_append stopped b.value out fun _ => first) fun _ _ =>
      ih fun c hc => foreign c (List.mem_cons_of_mem _ hc)

mutual

/-- A copy below another section leaves a stopped section guarded. -/
lemma keeps_copySubtree (stopped : Stopped rules a s) : ∀ (t : Subtree) {target : Nat},
    ¬ a.Frozen rules s target → t.shape.AllAttributes (Foreign rules) →
    Keeps (a.Guarded rules s) (copySubtree target t) fun _ => True
  | .mk _ name value attributes children, target, out, foreign => by
    obtain ⟨own, rest⟩ := Shape.allAttributes_iff.1 foreign
    rw [copySubtree]
    refine .bind (keeps_append stopped value out nofun) fun id new => ?_
    refine .bind (keeps_copyAttributes stopped new own) fun _ _ => ?_
    exact .bind (keeps_copySubtrees stopped children new rest) fun _ _ => .pure trivial

/-- Copying trees that declare no policies keeps the section guarded. -/
lemma keeps_copySubtrees (stopped : Stopped rules a s) : ∀ (ts : List Subtree) {target : Nat},
    ¬ a.Frozen rules s target → (∀ c ∈ Subtree.shapes ts, c.AllAttributes (Foreign rules)) →
    Keeps (a.Guarded rules s) (copySubtrees target ts) fun _ => True
  | [], _, _, _ => .pure trivial
  | t :: ts, target, out, foreign => by
    rw [copySubtrees]
    refine .bind (keeps_copySubtree stopped t out (foreign _ List.mem_cons_self)) fun _ _ => ?_
    exact keeps_copySubtrees stopped ts out fun c hc => foreign c (List.mem_cons_of_mem _ hc)

end

/-! ## Merges beside a stopped section -/

/-- Merging a value outside of what is frozen keeps the section guarded. -/
lemma keeps_mergeValue (value : Option String) (out : ¬ a.Frozen rules s target) :
    Keeps (a.Guarded rules s) (mergeValue target value) fun _ => True :=
  .bind .get fun _ _ => .ite (keeps_setValue value out) (.pure trivial)

/-- Merging attributes that declare no policy keeps the section guarded. -/
lemma keeps_mergeAttributes (stopped : Stopped rules a s) (out : ¬ a.Frozen rules s target)
    {attributes : List Attribute}
    (foreign : ∀ b ∈ attributes.map Attribute.pair, Foreign rules b) (seen : List String) :
    Keeps (a.Guarded rules s) (mergeAttributes target seen attributes) fun _ => True := by
  obtain ⟨sd, hs, sec⟩ := stopped.live
  induction attributes generalizing seen with
  | nil => exact .pure trivial
  | cons b attributes ih =>
    have first := foreign _ List.mem_cons_self
    have rest := fun seen => ih (fun c hc => foreign c (List.mem_cons_of_mem _ hc)) seen
    rw [mergeAttributes]
    refine .bind .get fun conf guarded => ?_
    dsimp only
    split
    · -- The counterpart has the name of the attribute, so it declares no policy.
      rename_i id found
      obtain ⟨hm, named⟩ := List.mem_filter.1 (List.mem_of_getElem? found)
      have beside := guarded.not_frozen_attribute stopped.wellFormed hs sec out hm named first
      exact .ite (.bind (keeps_setValue _ beside) fun _ _ => rest _) (rest _)
    · exact .bind (keeps_append stopped b.value out fun _ => first) fun _ _ => rest _

/-- Content is replaced only aside from a stopped section. -/
lemma keeps_replaceBy (stopped : Stopped rules a s) {t : Subtree} (out : ¬ a.Frozen rules s target)
    (aside : ¬ a.Below target s) (foreign : t.shape.AllAttributes (Foreign rules)) :
    Keeps (a.Guarded rules s) (replaceBy target t) fun _ => True := by
  obtain ⟨id, name, value, attributes, children⟩ := t
  obtain ⟨own, rest⟩ := Shape.allAttributes_iff.1 foreign
  refine .bind (keeps_clear stopped out aside) fun _ _ => ?_
  refine .bind (keeps_setValue value out) fun _ _ => ?_
  exact .bind (keeps_copyAttributes stopped out own) fun _ _ =>
    keeps_copySubtrees stopped children out rest

variable (process source) in
mutual

/-- A merge into a stopped section, or into another one, leaves the stopped section guarded. -/
lemma keeps_mergeSection (stopped : Stopped rules a s)
    (names : rules'.policyName = rules.policyName) : ∀ (t : Subtree) {target : Nat},
    target = s ∨ ¬ a.Frozen rules s target → t.shape.AllAttributes (Foreign rules) →
    Keeps (a.Guarded rules s) (mergeSection process rules' source target t) fun _ => True
  | .mk id name value attributes children, target, place, foreign => by
    obtain ⟨own, rest⟩ := Shape.allAttributes_iff.1 foreign
    -- The section itself is stopped, and no section above it is replaced.
    have policies :
        Keeps (a.Guarded rules s) (look (·.policyOf process rules' target)) fun policy =>
        (target = s → policy = .stop) ∧ (policy = .replace → ¬ a.Below target s) := by
      refine .look fun conf policy guarded h => ⟨?_, ?_⟩
      · rintro rfl
        have stop := (guarded.policyOf_iff stopped names .self).1 h
        rw [stopped.stop] at stop
        exact (Option.some.inj stop).symm
      · rintro rfl above
        have replace := (guarded.policyOf_iff stopped names above).1 h
        by_cases e : target = s
        · rw [e, stopped.stop] at replace
          cases replace
        · exact stopped.above target above e replace
    rw [mergeSection]
    refine .bind policies fun policy ⟨stop, aside⟩ => ?_
    have out : policy ≠ .stop → ¬ a.Frozen rules s target := fun go =>
      place.resolve_left fun e => go (stop e)
    cases policy with
    | stop => exact .pure trivial
    | fail => exact .look fun _ _ _ _ => trivial
    | replace => exact keeps_replaceBy stopped (out nofun) (aside rfl) foreign
    | attributes =>
      exact .bind (keeps_mergeValue value (out nofun)) fun _ _ =>
        keeps_mergeAttributes stopped (out nofun) own []
    | sections => exact keeps_mergeSections stopped names children (out nofun) rest
    | all =>
      refine .bind (keeps_mergeValue value (out nofun)) fun _ _ => ?_
      exact .bind (keeps_mergeAttributes stopped (out nofun) own []) fun _ _ =>
        keeps_mergeSections stopped names children (out nofun) rest

/-- Merging sections that declare no policies keeps the section guarded. -/
lemma keeps_mergeSections (stopped : Stopped rules a s)
    (names : rules'.policyName = rules.policyName) : ∀ (ts : List Subtree) {target : Nat},
    ¬ a.Frozen rules s target → (∀ c ∈ Subtree.shapes ts, c.AllAttributes (Foreign rules)) →
    Keeps (a.Guarded rules s) (mergeSections process rules' source target ts) fun _ => True
  | [], _, _, _ => .pure trivial
  | t :: ts, target, out, foreign => by
    obtain ⟨sd, hs, -⟩ := stopped.live
    have first := foreign _ List.mem_cons_self
    have rest := keeps_mergeSections stopped names ts out
      fun c hc => foreign c (List.mem_cons_of_mem _ hc)
    have paired : Keeps (a.Guarded rules s)
        (look fun conf => conf.matchOf process rules' source target t.id t.name)
        fun found => ∀ x ∈ found, x = s ∨ ¬ a.Frozen rules s x := by
      refine .look fun conf found guarded h x hx => ?_
      rw [Option.mem_def] at hx
      rw [hx] at h
      by_cases frozen : a.Frozen rules s x
      · exact .inl (guarded.of_child stopped.wellFormed out (mem_of_matchOf h) frozen)
      · exact .inr frozen
    rw [mergeSections]
    refine .bind paired fun found places => ?_
    cases found with
    | some x =>
      exact .bind (keeps_mergeSection stopped names t (places x rfl) first) fun _ _ => rest
    | none => exact .bind (keeps_copySubtree stopped t out first) fun _ _ => rest

end

/-- The root is the section, or outside of what is frozen. -/
lemma root_place (stopped : Stopped rules a s) : root = s ∨ ¬ a.Frozen rules s root := by
  obtain ⟨sd, hs, -⟩ := stopped.live
  obtain ⟨r, hr, sec, -⟩ := stopped.wellFormed.root
  by_cases frozen : a.Frozen rules s root
  · left
    rcases frozen with below | ⟨p, above, hp⟩
    · exact (Nat.le_zero.1 (below.le stopped.wellFormed)).symm
    · obtain ⟨d, hd, kind, -⟩ := live_attribute? stopped.wellFormed hp
      rw [hr] at hd
      cases hd
      rw [kind] at sec
      cases sec
  · exact .inr frozen

end Edit

namespace Subtree

mutual

/-- The attributes of a tree of names have names. -/
lemma Named.attributes : ∀ {t : Subtree}, t.Named → t.shape.AllAttributes fun b => GoodName b.1
  | .mk _ _ _ attributes children, ⟨_, own, rest⟩ => by
    refine Shape.allAttributes_iff.2 ⟨fun b hb => ?_, rest.attributes⟩
    obtain ⟨c, hc, rfl⟩ := List.mem_map.1 hb
    exact own c hc

/-- The attributes of trees of names have names. -/
lemma AllNamed.attributes : ∀ {ts : List Subtree}, AllNamed ts →
    ∀ c ∈ Subtree.shapes ts, c.AllAttributes fun b => GoodName b.1
  | [], _ => nofun
  | _ :: _, ⟨first, rest⟩ => List.forall_mem_cons.2 ⟨first.attributes, rest.attributes⟩

end

end Subtree

/-- A merge of a configuration that declares no policies leaves a stopped section guarded. -/
lemma Edit.keeps_overrideBy (stopped : Stopped rules a s) (process : Host)
    (names : rules'.policyName = rules.policyName) (wfs : source.WellFormed)
    (undeclared : Undeclared rules (source.shape root)) :
    Keeps (a.Guarded rules s) (overrideBy process rules' source) fun _ => True := by
  obtain ⟨d, live, -⟩ := wfs.root
  have good := (named_subtree wfs live).attributes
  have foreign : (source.shape root).AllAttributes (Foreign rules) := by
    intro t ht b hb
    rw [Foreign, (good t ht b hb).2]
    exact undeclared t ht b hb
  have top : Keeps (a.Guarded rules s) (look fun _ => source.requireSectionOf (some root))
      fun id => id = root := by
    refine .look fun _ id _ h => ?_
    unfold requireSectionOf at h
    dsimp only at h
    split at h
    · exact (Except.ok.inj h).symm
    · cases h
  refine .bind top fun id e => .bind (.look fun _ _ _ _ => trivial) fun _ (_ : True) => ?_
  rw [e]
  exact keeps_mergeSection source process stopped names _ (root_place stopped) foreign

namespace Configuration

/-- Nothing comes of a merge into a stopped section. -/
lemma mergeSection_stopped (stopped : Stopped rules a s)
    (names : rules'.policyName = rules.policyName)
    (same : ∀ x, a.Below s x → conf.live? x = a.live? x) (t : Subtree) :
    (Edit.mergeSection process rules' source s t).apply conf = (.ok (), conf) := by
  obtain ⟨d, hs, -⟩ := stopped.live
  have below : ∀ c ∈ d.entries .attributeKind, a.Below s c := fun c hc =>
    .of_mem_entries stopped.wellFormed hs hc
  have first : conf.attribute? s rules.policyAttribute =
      a.attribute? s rules.policyAttribute := by
    refine attribute?_congr hs ((same s .self).trans hs) rfl fun c hc => ?_
    rw [isNamed, isNamed, hasName, hasName, same c (below c hc)]
  have policy : conf.policyOf process rules' s = .ok .stop := by
    refine (policyOf_of_same stopped names hs first fun x hx => ?_).2 stopped.stop
    exact same x (below x (of_attribute? hs hx).1)
  obtain ⟨id, name, value, attributes, children⟩ := t
  have looked : (Edit.look (·.policyOf process rules' s)).apply conf = (.ok .stop, conf) := by
    rw [Edit.apply_look, policy]
  rw [Edit.mergeSection, Edit.apply_bind_ok looked]
  rfl

/-- Nothing lies below a guarded section but what lay below it. -/
lemma Guarded.below_iff (stopped : Stopped rules a s) (guarded : a.Guarded rules s conf) {x : Nat} :
    conf.Below s x ↔ a.Below s x := by
  constructor
  · intro h
    induction h with
    | self => exact .self
    | @step x p d hd hp _ below =>
      -- The parent lists the node, and it lists what it listed before.
      obtain ⟨-, pd, hpd, -⟩ := guarded.wellFormed.parent hd hp
      have hm := guarded.wellFormed.mem_entries hd hp hpd
      rw [guarded.frozen p (.inl below)] at hpd
      exact below.trans (.of_mem_entries stopped.wellFormed hpd hm)
  · intro h
    have whole : ∀ y, a.Below s y → conf.live? y = a.live? y := fun y hy =>
      guarded.frozen y (.inl hy)
    induction h with
    | self => exact .self
    | step hd hp below ih => exact .step ((whole _ (.step hd hp below)).trans hd) hp ih

/-- A section with the policy `stop` is untouchable: if no section above it has the policy
`replace`, then after any merges of configurations without policies, failed ones included, it is as
it was with all below it, and as long as it is so, a merge of whatever section into it does nothing
and is no error. -/
theorem stopped_untouched (ha : Reachable a) (live : a.isSection s = true)
    (literal : ∀ (x : Nat) d, a.live? x = some d → d.kind = .attributeKind →
      sameName d.name rules.policyName = true → ∀ v ∈ d.value, hasReference v.toList = false)
    (stop : (a.shape s).policy? rules = some .stop)
    (above : ∀ p, a.Below p s → p ≠ s → (a.shape p).policy? rules ≠ some .replace)
    (calls : List (Host × Operation))
    (merges : ∀ c ∈ calls, ∃ rules' source, c.2 = .overrideBy rules' source ∧
      rules'.policyName = rules.policyName ∧ Reachable source ∧
      Undeclared rules (source.shape root)) :
    (∀ x, a.Below s x → (a.operateAll calls).live? x = a.live? x) ∧
      (∀ x, (a.operateAll calls).Below s x ↔ a.Below s x) ∧
      ∀ mid : Configuration, (∀ x, a.Below s x → mid.live? x = a.live? x) →
        ∀ process rules' source t, rules'.policyName = rules.policyName →
          (Edit.mergeSection process rules' source s t).apply mid = (.ok (), mid) := by
  have wf := ha.wellFormed
  have section' : ∃ d, a.live? s = some d ∧ d.kind = .sectionKind := by
    rw [isSection] at live
    cases h : a.live? s with
    | none =>
      rw [h] at live
      cases live
    | some d =>
      rw [h] at live
      exact ⟨d, rfl, NodeData.kind_eq_sectionKind.2 live⟩
  have stopped : Stopped rules a s := ⟨wf, section', literal, stop, above⟩
  have run : ∀ {conf : Configuration}, a.Guarded rules s conf →
      a.Guarded rules s (conf.operateAll calls) := by
    induction calls with
    | nil => exact fun guarded => guarded
    | cons c calls ih =>
      intro conf guarded
      obtain ⟨rules', source, op, names, hr, undeclared⟩ := merges c List.mem_cons_self
      have kept := Edit.keeps_overrideBy stopped c.1 names hr.wellFormed undeclared conf guarded
      obtain ⟨process, op'⟩ := c
      cases op
      exact ih (fun x hx => merges x (List.mem_cons_of_mem _ hx)) kept.1
  have guarded := run (.refl wf)
  exact ⟨fun x hx => guarded.frozen x (.inl hx), fun x => guarded.below_iff stopped,
    fun mid same process rules' source t names => mergeSection_stopped stopped names same t⟩

/-- A stopped section with a child section beside one that makes every merge fail. -/
theorem stopped_untouched_sample :
    let a := (withRoot "base").operateAll
      [(.bare, .addSection 0 "log" (some "1")),
       (.bare, .addAttribute 1 "_Override" (some " STOP ")),
        (.bare, .addSection 1 "file" none), (.bare, .addSection 0 "data" none),
        (.bare, .addAttribute 4 "_override" (some "fail"))]
    let b := (withRoot "layer").operateAll
      [(.bare, .setValue 0 (some "new")), (.bare, .addSection 0 "Log" (some "2")),
        (.bare, .addSection 1 "file" (some "3")), (.bare, .addSection 0 "data" (some "4"))]
    let c := a.operateAll [(.bare, .overrideBy .standard b), (.bare, .overrideBy .standard b)]
    ((Edit.overrideBy .bare .standard b).apply a).1 = .error (.mergeConflict "/data" "_override") ∧
      c.verbatim? 0 = some "new" ∧ (∀ x, a.Below 1 x → c.live? x = a.live? x) ∧
      ∀ t, (Edit.mergeSection .bare .standard b 1 t).apply c = (.ok (), c) := by
  intro a b c
  have ha : Reachable a := (Reachable.withRoot "base").operateAll _ (by simp [Operation.others])
  have hb : Reachable b := (Reachable.withRoot "layer").operateAll _ (by simp [Operation.others])
  have size : a.nodes.size = 6 := by decide +kernel
  have literal : ∀ (x : Nat) d, a.live? x = some d → d.kind = .attributeKind →
      sameName d.name (Rules.standard.policyName) = true →
      ∀ v ∈ d.value, hasReference v.toList = false := by
    have each : ∀ x < 6, ∀ d ∈ a.live? x, ∀ v ∈ d.value, hasReference v.toList = false := by
      decide +kernel
    exact fun x d hd _ _ => each x (size ▸ lt_size_of_live hd) d hd
  have above : ∀ p, a.Below p 1 → p ≠ 1 → (a.shape p).policy? .standard ≠ some .replace := by
    have each : ∀ p < 2, (a.shape p).policy? .standard ≠ some .replace := by decide +kernel
    exact fun p hp _ => each p (Nat.lt_succ_of_le (hp.le ha.wellFormed))
  have undeclared : Undeclared .standard (b.shape root) := by decide +kernel
  have merges : ∀ call ∈ [(Host.bare, Operation.overrideBy .standard b),
      (.bare, .overrideBy .standard b)], ∃ rules' source, call.2 = .overrideBy rules' source ∧
        rules'.policyName = Rules.standard.policyName ∧ Reachable source ∧
        Undeclared .standard (source.shape root) := by
    simp only [List.mem_cons, List.not_mem_nil, or_false, or_self, forall_eq]
    exact ⟨_, _, rfl, rfl, hb, undeclared⟩
  obtain ⟨same, -, quiet⟩ := stopped_untouched ha (by decide +kernel) literal (by decide +kernel)
    above _ merges
  exact ⟨by decide +kernel, by decide +kernel, same, fun t => quiet c same .bare .standard b t rfl⟩

end Configuration

end ConfTree
