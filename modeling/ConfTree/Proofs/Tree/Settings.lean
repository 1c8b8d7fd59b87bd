import ConfTree.Proofs.Evaluation.SameTree
import ConfTree.Proofs.Tree.Descent
import ConfTree.Proofs.Tree.NameClasses

/-!
# Configurations that hold settings

A setting is a value, and the path of the attribute that has it. A configuration `Holds` settings if
all its names are low ones that differ among siblings, if each setting is found along its path, and
if there is no other attribute. It is `Furnished` if no section but the root lacks an attribute
below it. Such a configuration has no other structure than its settings: two of them that hold the
same settings, in whatever order, are structurally equal (`Holds.alike`).
-/

namespace ConfTree

open ConfTree.Text

/-- A value, and the sections and the attribute that lead to it. -/
structure Setting where
  path : List String × String
  value : String
  deriving DecidableEq

/-- The names along the path of the setting are low ones. -/
def Setting.Low (s : Setting) : Prop := ∀ n ∈ s.path.1 ++ [s.path.2], LowName n

namespace Configuration

/-- Names are low and differ among siblings, and no section has a value. -/
structure Tidy (conf : Configuration) : Prop where
  wellFormed : conf.WellFormed
  rootName : conf.nameOf root = defaultRootName
  low : ∀ (id : Nat) d, conf.live? id = some d → id ≠ root → LowName d.name
  bare : ∀ (id : Nat) d, conf.live? id = some d → d.kind = .sectionKind → d.value = none
  apart : ∀ (id : Nat) d k, conf.live? id = some d →
    ((d.entries k).map conf.nameOf).Pairwise fun m n => sameName m n = false

/-- The attributes of the configuration are the settings. -/
structure Holds (conf : Configuration) (settings : List Setting) : Prop extends Tidy conf where
  found : ∀ s ∈ settings, ∃ id,
    conf.attributeUnder? s.path = some id ∧ conf.verbatim? id = some s.value
  only : ∀ (id : Nat) d, conf.live? id = some d → d.kind = .attributeKind →
    ∃ s ∈ settings, conf.attributeUnder? s.path = some id

/-- All sections have an attribute below them, but for the root and those above `top`. -/
def Furnished (conf : Configuration) (top : NodeId) : Prop :=
  ∀ (id : Nat) d, conf.live? id = some d → d.kind = .sectionKind → id ≠ root →
    conf.Below id top ∨ ∃ x e, conf.live? x = some e ∧ e.kind = .attributeKind ∧ conf.Below id x

variable {conf : Configuration} {settings : List Setting} {p x : Nat} {pd d : NodeData}
  {kind : Kind} {name : String} {names : List String} {value : Option String}

/-! ## A new node -/

section

variable (h : conf.live? p = some pd) (sec : pd.kind = .sectionKind) (low : LowName name)
  (fresh : conf.named? kind p name = none)

include h sec low fresh

/-- A configuration stays tidy when an entry is added whose name no sibling has. -/
lemma Tidy.addNode (tidy : conf.Tidy) (plain : kind = .sectionKind → value = none) :
    (conf.addNode kind p name value).Tidy := by
  have wf := tidy.wellFormed
  constructor
  case wellFormed => exact wf.addNode h sec low.good
  case rootName =>
    obtain ⟨r, hr, -⟩ := wf.root
    exact (nameOf_addNode_old h sec hr).trans tidy.rootName
  case low =>
    intro id e he other
    rcases of_live?_addNode h sec he with ⟨-, rfl⟩ | ⟨d, hd, -, -, same, -⟩
    · exact low
    · exact same ▸ tidy.low id d hd other
  case bare =>
    intro id e he esec
    rcases of_live?_addNode h sec he with ⟨-, rfl⟩ | ⟨d, hd, same, -, -, kept, -⟩
    · exact plain ((kind_new true _).symm.trans esec)
    · exact kept.trans (tidy.bare id d hd (same.symm.trans esec))
  case apart =>
    intro id e k he
    rcases of_live?_addNode h sec he with ⟨-, rfl⟩ | ⟨d, hd, -, -, -, -, entries⟩
    · rw [entries_new]
      exact .nil
    · rw [entries]
      split
      · rename_i here
        obtain ⟨rfl, rfl⟩ := here
        rw [h] at hd
        cases hd
        rw [List.map_append, map_nameOf_addNode wf h sec h, List.map_singleton,
          nameOf_addNode_new h]
        refine List.pairwise_append.2 ⟨tidy.apart id pd k h, List.pairwise_singleton _ _, ?_⟩
        rintro _ hm _ hn
        obtain ⟨c, hc, rfl⟩ := List.mem_map.1 hm
        obtain rfl := List.mem_singleton.1 hn
        obtain ⟨f, live, -⟩ := wf.listed id pd k c h hc
        rw [named?_eq h, List.find?_eq_none] at fresh
        have other := fresh c hc
        rw [isNamed, hasName, live, low.good.2] at other
        rw [nameOf_eq live]
        exact Bool.eq_false_iff.2 other
      · rw [map_nameOf_addNode wf h sec hd]
        exact tidy.apart id d k hd

omit low fresh in
/-- Settings are found where they were found before a node was added. -/
lemma Holds.found_addNode (holds : conf.Holds settings) {s : Setting} (hs : s ∈ settings) :
    ∃ id, (conf.addNode kind p name value).attributeUnder? s.path = some id ∧
      (conf.addNode kind p name value).verbatim? id = some s.value := by
  have wf := holds.wellFormed
  obtain ⟨id, found, same⟩ := holds.found s hs
  obtain ⟨-, d, -, live, -⟩ := of_attributeUnder? wf found
  exact ⟨id, attributeUnder?_addNode h sec wf found, (verbatim?_addNode h live).trans same⟩

omit low fresh in
/-- The old attributes are settings after a node was added. -/
lemma Holds.only_addNode (holds : conf.Holds settings) {id : Nat} {e : NodeData}
    (old : id ≠ conf.nodes.size)
    (he : (conf.addNode kind p name value).live? id = some e) (attr : e.kind = .attributeKind) :
    ∃ s ∈ settings, (conf.addNode kind p name value).attributeUnder? s.path = some id := by
  obtain ⟨d, hd, same, -⟩ := (of_live?_addNode h sec he).resolve_left fun new => old new.1
  obtain ⟨s, hs, found⟩ := holds.only id d hd (same.symm.trans attr)
  exact ⟨s, hs, attributeUnder?_addNode h sec holds.wellFormed found⟩

/-- A section that is added leaves the settings. -/
lemma Holds.addSection (holds : conf.Holds settings) (isSection : kind = .sectionKind) :
    (conf.addNode kind p name none).Holds settings := by
  refine ⟨holds.toTidy.addNode h sec low fresh fun _ => rfl,
    fun s hs => holds.found_addNode h sec hs, fun id e he attr => ?_⟩
  refine holds.only_addNode h sec ?_ he attr
  rintro rfl
  rw [live?_addNode_new h] at he
  cases he
  rw [kind_new, isSection] at attr
  cases attr

/-- An attribute that is added is one more setting. -/
lemma Holds.addAttribute (holds : conf.Holds settings) (isAttribute : kind = .attributeKind)
    (reached : conf.sectionUnder? root names = some p) {text : String} :
    (conf.addNode kind p name (some text)).Holds (settings ++ [⟨(names, name), text⟩]) := by
  subst isAttribute
  have new : (conf.addNode .attributeKind p name (some text)).attributeUnder? (names, name) =
      some conf.nodes.size := by
    rw [attributeUnder?, sectionUnder?_addNode h sec holds.wellFormed reached]
    exact named?_addNode_new h sec holds.wellFormed low.good fresh
  refine ⟨holds.toTidy.addNode h sec low fresh (absurd · (by decide)), fun s hs => ?_,
    fun id e he attr => ?_⟩
  · rcases List.mem_append.1 hs with hs | hs
    · exact holds.found_addNode h sec hs
    · obtain rfl := List.mem_singleton.1 hs
      exact ⟨_, new, verbatim?_eq (live?_addNode_new h)⟩
  · by_cases last : id = conf.nodes.size
    · subst last
      exact ⟨_, List.mem_append_right _ (List.mem_singleton_self _), new⟩
    · obtain ⟨s, hs, found⟩ := holds.only_addNode h sec last he attr
      exact ⟨s, List.mem_append_left _ hs, found⟩

end

section

variable (h : conf.live? p = some pd) (furnished : conf.Furnished p)

include h furnished

/-- What lies above a section lies above its entries. -/
lemma Furnished.of_entry (wf : conf.WellFormed) (hx : x ∈ pd.entries kind) : conf.Furnished x :=
  fun id d live isSection other => (furnished id d live isSection other).imp_left fun above =>
    above.trans (.of_mem_entries wf h hx)

/-- An entry that is added leaves the sections above it without attributes at most. -/
lemma Furnished.addNode (sec : pd.kind = .sectionKind) :
    (conf.addNode kind p name value).Furnished conf.nodes.size := by
  intro id e he isSection other
  have last : (conf.addNode kind p name value).Below p conf.nodes.size :=
    .step (live?_addNode_new h) rfl .self
  rcases of_live?_addNode h sec he with ⟨rfl, -⟩ | ⟨d, hd, same, -⟩
  · exact .inl .self
  · rcases furnished id d hd (same.symm.trans isSection) other with above | below
    · exact .inl ((below_addNode h sec above).trans last)
    · obtain ⟨x, a, live, attr, below⟩ := below
      obtain ⟨b, live', kind', -⟩ := live?_addNode_old h sec live
      exact .inr ⟨x, b, live', kind'.trans attr, below_addNode h sec below⟩

end

/-- Sections above an attribute have one below them. -/
lemma Furnished.settled (furnished : conf.Furnished x) (live : conf.live? x = some d)
    (attr : d.kind = .attributeKind) : conf.Furnished p :=
  fun id e he isSection other => .inr <| by
    rcases furnished id e he isSection other with above | below
    · exact ⟨x, d, live, attr, above⟩
    · exact below

/-! ## The first and the last configuration -/

/-- An empty configuration holds no settings. -/
lemma holds_empty : Configuration.empty.Holds [] := by
  have only : ∀ (id : Nat) d, Configuration.empty.live? id = some d →
      id = root ∧ d = ⟨defaultRootName, none, none, .lists #[] #[], false, false⟩ := by
    intro id d live
    obtain rfl : id = root := Nat.lt_one_iff.1 (lt_size_of_live live)
    exact ⟨rfl, (Option.some.inj live).symm⟩
  refine ⟨⟨wellFormed_withRoot _, rfl, fun id d live other => ?_, fun id d live _ => ?_,
    fun id d k live => ?_⟩, List.forall_mem_nil _, fun id d live attr => ?_⟩
  · exact absurd (only id d live).1 other
  · rw [(only id d live).2]
  · obtain ⟨-, rfl⟩ := only id d live
    cases k <;> exact .nil
  · rw [(only id d live).2] at attr
    cases attr

/-- An empty configuration is furnished. -/
lemma furnished_empty : Configuration.empty.Furnished root := by
  intro id d live _ other
  exact absurd (Nat.lt_one_iff.1 (lt_size_of_live live)) other

/-- After a reset a live node differs in its flag only. -/
lemma live?_resetModified_of_live (h : conf.live? x = some d) :
    conf.resetModified.live? x = some { d with modified := false } := by
  rw [live?_resetModified, h, Option.map_some]

/-- The node was live before it was forgotten what was modified, with another flag at most. -/
lemma of_live?_resetModified (h : conf.resetModified.live? x = some d) :
    ∃ e, conf.live? x = some e ∧ d = { e with modified := false } := by
  rw [live?_resetModified] at h
  obtain ⟨e, live, same⟩ := Option.map_eq_some_iff.1 h
  exact ⟨e, live, same.symm⟩

/-- Settings are held whatever counts as modified. -/
lemma Holds.resetModified (holds : conf.Holds settings) : conf.resetModified.Holds settings := by
  have same : SameTree conf conf.resetModified :=
    ⟨fun id => by rw [live?_resetModified, Option.map_map]; rfl, rfl, rfl⟩
  have names : conf.resetModified.nameOf = conf.nameOf :=
    funext fun id => congrArg (Option.getD · "") (same.map_live (fun _ => rfl) id)
  have children : conf.resetModified.child? = conf.child? := by
    funext id name
    rw [child?, child?, same.childrenOf, same.isNamed]
  have found : conf.resetModified.attributeUnder? = conf.attributeUnder? := by
    funext path
    rw [attributeUnder?, attributeUnder?, sectionUnder?, sectionUnder?, children]
    exact congrArg _ (funext fun id => same.attribute? id path.2)
  refine ⟨⟨holds.wellFormed.resetModified, ?_, fun id d live other => ?_, fun id d live sec => ?_,
    fun id d k live => ?_⟩, fun s hs => ?_, fun id d live attr => ?_⟩
  · rw [names]
    exact holds.rootName
  · obtain ⟨e, before, rfl⟩ := of_live?_resetModified live
    exact holds.low id e before other
  · obtain ⟨e, before, rfl⟩ := of_live?_resetModified live
    exact holds.bare id e before sec
  · obtain ⟨e, before, rfl⟩ := of_live?_resetModified live
    rw [names]
    cases k with
    | sectionKind => exact holds.apart id e .sectionKind before
    | attributeKind => exact holds.apart id e .attributeKind before
  · obtain ⟨id, reached, value⟩ := holds.found s hs
    refine ⟨id, found ▸ reached, ?_⟩
    rw [← value, verbatim?, verbatim?, live?_resetModified]
    cases conf.live? id <;> rfl
  · obtain ⟨e, before, rfl⟩ := of_live?_resetModified live
    rw [found]
    exact holds.only id e before attr

/-- After a reset the same nodes are below another. -/
lemma below_resetModified {y : Nat} (below : conf.Below x y) : conf.resetModified.Below x y := by
  induction below with
  | self => exact .self
  | step live parent _ ih => exact .step (live?_resetModified_of_live live) parent ih

/-- A reset takes nothing away. -/
lemma Furnished.resetModified (furnished : conf.Furnished p) :
    conf.resetModified.Furnished p := by
  intro id d live sec other
  obtain ⟨e, before, rfl⟩ := of_live?_resetModified live
  rcases furnished id e before sec other with above | ⟨x, a, ha, attr, below⟩
  · exact .inl (below_resetModified above)
  · exact .inr ⟨x, _, live?_resetModified_of_live ha, attr, below_resetModified below⟩

/-! ## Two configurations with the same settings -/

/-- Of entries that differ in their names, one has the name that is looked for. -/
lemma filter_eq_find? {α : Type} {q : α → Bool} {l : List α}
    (apart : l.Pairwise fun a b => ¬ (q a = true ∧ q b = true)) :
    l.filter q = (l.find? q).toList := by
  induction l with
  | nil => rfl
  | cons a l ih =>
    obtain ⟨first, rest⟩ := List.pairwise_cons.1 apart
    cases ha : q a with
    | true =>
      rw [List.filter_cons_of_pos ha, List.find?_cons_of_pos ha,
        List.filter_eq_nil_iff.2 fun b hb named => first b hb ⟨ha, named⟩]
      rfl
    | false =>
      have no : ¬ q a = true := Bool.eq_false_iff.1 ha
      rw [List.filter_cons_of_neg no, List.find?_cons_of_neg no, ih rest]

variable {a b : Configuration} {xs ys : List Setting} {y c : Nat} {e : NodeData} {k : Kind}
  {n : String}

namespace Tidy

/-- No entry is the root, so its name is a low one. -/
lemma low_entry (tidy : conf.Tidy) (h : conf.live? x = some d) (hc : c ∈ d.entries k) :
    LowName (conf.nameOf c) := by
  obtain ⟨e, live, -, parent⟩ := tidy.wellFormed.listed x d k c h hc
  rw [nameOf_eq live]
  exact tidy.low c e live (tidy.wellFormed.ne_root live parent)

/-- The entries of a lower-case form are the one that has it for its name. -/
lemma filter_lowers (tidy : conf.Tidy) (h : conf.live? x = some d) (low : LowName n) :
    (d.entries k).filter (lowers conf.nameOf n) = (conf.named? k x n).toList := by
  have named : ∀ c ∈ d.entries k, lowers conf.nameOf n c = conf.isNamed c n := by
    intro c hc
    obtain ⟨e, live, -⟩ := tidy.wellFormed.listed x d k c h hc
    have lowc := tidy.low_entry h hc
    have plain : conf.isNamed c n = sameName (conf.nameOf c) n := by
      rw [isNamed, hasName, live, low.good.2, nameOf_eq live]
    rw [plain, lowers, lowc.lower, Bool.eq_iff_iff, beq_iff_eq]
    exact ⟨fun same => same ▸ sameName_refl _, lowc.eq_of_sameName low⟩
  rw [List.filter_congr named, named?_eq h]
  have differing := List.pairwise_map.1 (tidy.apart x d k h)
  refine filter_eq_find? (differing.imp_of_mem fun ha hb differ both => ?_)
  rw [← named _ ha, ← named _ hb, lowers_iff, lowers_iff, (tidy.low_entry h ha).lower,
    (tidy.low_entry h hb).lower] at both
  rw [both.1, both.2, sameName_refl] at differ
  cases differ

/-- No entry has a lower-case form that is no low name. -/
lemma filter_lowers_eq_nil (tidy : conf.Tidy) (h : conf.live? x = some d) (high : ¬ LowName n) :
    (d.entries k).filter (lowers conf.nameOf n) = [] := by
  refine List.filter_eq_nil_iff.2 fun c hc named => high ?_
  have low := tidy.low_entry h hc
  rw [lowers_iff, low.lower] at named
  exact named ▸ low

/-- Sections to which one path leads have one name. -/
lemma sameName_of_path (ta : a.Tidy) (tb : b.Tidy) (hx : a.sectionUnder? root names = some x)
    (hy : b.sectionUnder? root names = some y) : sameName (a.nameOf x) (b.nameOf y) = true := by
  rcases List.eq_nil_or_concat names with rfl | ⟨names, n, rfl⟩
  · cases hx
    cases hy
    rw [ta.rootName, tb.rootName]
    exact sameName_refl _
  · rw [List.concat_eq_append] at hx hy
    obtain ⟨p, -, last⟩ := of_sectionUnder?_concat hx
    obtain ⟨q, -, last'⟩ := of_sectionUnder?_concat hy
    obtain ⟨-, d, -, -, live, -, -, named⟩ := of_named? ta.wellFormed last
    obtain ⟨-, e, -, -, live', -, -, named'⟩ := of_named? tb.wellFormed last'
    rw [nameOf_eq live, nameOf_eq live']
    exact sameName_trans named (sameName_symm named')

end Tidy

namespace Holds

/-- An entry on the way to a setting is there wherever the setting is held. -/
lemma entry_of_entry (ha : a.Holds xs) (furnished : a.Furnished root) (hb : b.Holds ys)
    (lows : ∀ s ∈ xs, s.Low) (sub : xs ⊆ ys) (low : ∀ m ∈ names ++ [n], LowName m)
    (hx : a.sectionUnder? root names = some x) (hy : b.sectionUnder? root names = some y)
    (found : a.named? k x n = some c) :
    ∃ c', b.named? k y n = some c' ∧ (k = .attributeKind → b.verbatim? c' = a.verbatim? c) := by
  have wf := ha.wellFormed
  obtain ⟨-, d, -, -, live, kind, parent, -⟩ := of_named? wf found
  cases k with
  | attributeKind =>
    have here : a.attributeUnder? (names, n) = some c := by
      rw [attributeUnder?, hx]
      exact found
    obtain ⟨s, hs, reached⟩ := ha.only c d live kind
    have path : s.path = (names, n) := attributeUnder?_injective wf (lows s hs) low reached here
    obtain ⟨c₁, found₁, value₁⟩ := ha.found s hs
    obtain ⟨c₂, found₂, value₂⟩ := hb.found s (sub hs)
    rw [reached] at found₁
    cases found₁
    rw [path, attributeUnder?, hy] at found₂
    exact ⟨c₂, found₂, fun _ => value₂.trans value₁.symm⟩
  | sectionKind =>
    have here : a.sectionUnder? root (names ++ [n]) = some c := by
      rw [sectionUnder?_concat, hx]
      exact found
    have other := wf.ne_root live parent
    -- There is a setting below the section, and its path passes through the section.
    obtain above | ⟨z, e, live', attr, below⟩ := furnished c d live kind other
    · exact absurd (Nat.le_zero.1 (above.le wf)) other
    · obtain ⟨s, hs, reached⟩ := ha.only z e live' attr
      obtain ⟨q, f, front, live'', -, parent', -⟩ := of_attributeUnder? wf reached
      have inside : a.Below c q := by
        refine (below.parent live'' parent').resolve_left ?_
        rintro rfl
        rw [live] at live'
        cases live'
        rw [kind] at attr
        cases attr
      obtain ⟨pre, post, split, reached'⟩ := sectionUnder?_of_below wf front inside
      have lowPre : ∀ m ∈ pre, LowName m := fun m hm => lows s hs m (by simp [split, hm])
      have path := sectionUnder?_injective wf lowPre low reached' here
      obtain ⟨_, found₂, -⟩ := hb.found s (sub hs)
      obtain ⟨_, _, front₂, -⟩ := of_attributeUnder? hb.wellFormed found₂
      rw [split, path, sectionUnder?_append] at front₂
      obtain ⟨c', there, -⟩ := Option.bind_eq_some_iff.1 front₂
      rw [sectionUnder?_concat, hy] at there
      exact ⟨c', there, (absurd · (by decide))⟩

/-- Sections to which one path leads are structurally equal if the configurations hold the same
settings. -/
lemma alike (ha : a.Holds xs) (furnishedA : a.Furnished root) (hb : b.Holds ys)
    (furnishedB : b.Furnished root) (lows : ∀ s ∈ xs, s.Low) (same : ∀ s, s ∈ xs ↔ s ∈ ys)
    (low : ∀ m ∈ names, LowName m) (hx : a.sectionUnder? root names = some x)
    (hy : b.sectionUnder? root names = some y) : Alike a b x y := by
  have wfa := ha.wellFormed
  have wfb := hb.wellFormed
  obtain ⟨r, hr, rsec, -⟩ := wfa.root
  obtain ⟨r', hr', rsec', -⟩ := wfb.root
  -- The entries of a section come after it, and the arena is finite.
  induction left : a.nodes.size - x using Nat.strongRecOn generalizing names x y with
  | ind left' ih =>
    subst left
    obtain ⟨-, d, live, sec⟩ := of_sectionUnder? wfa hr rsec hx
    obtain ⟨-, e, live', sec'⟩ := of_sectionUnder? wfb hr' rsec' hy
    have named := ha.toTidy.sameName_of_path hb.toTidy hx hy
    rw [nameOf_eq live, nameOf_eq live'] at named
    have own : d.Resembles e :=
      ⟨sec.trans sec'.symm, named, by rw [ha.bare x d live sec, hb.bare y e live' sec']⟩
    refine (alike_iff_forms wfa wfb live live').2 ⟨own, fun k form => ?_⟩
    by_cases lowForm : LowName form
    · rw [ha.toTidy.filter_lowers live lowForm, hb.toTidy.filter_lowers live' lowForm]
      have lowPath : ∀ m ∈ names ++ [form], LowName m :=
        List.forall_mem_append.2 ⟨low, List.forall_mem_singleton.2 lowForm⟩
      cases found : a.named? k x form with
      | none =>
        cases found' : b.named? k y form with
        | none => exact .nil
        | some c' =>
          obtain ⟨c, there, -⟩ := hb.entry_of_entry furnishedB ha
            (fun s hs => lows s ((same s).2 hs)) (fun s hs => (same s).2 hs) lowPath hy hx found'
          rw [found] at there
          cases there
      | some c =>
        obtain ⟨c', found', value⟩ := ha.entry_of_entry furnishedA hb lows
          (fun s hs => (same s).1 hs) lowPath hx hy found
        rw [found']
        refine .cons ?_ .nil
        obtain ⟨pd, u, hp, hc, hu, kind, -, named⟩ := of_named? wfa found
        obtain ⟨-, v, -, -, hv, kind', -, named'⟩ := of_named? wfb found'
        cases k with
        | sectionKind =>
          have after := wfa.lt_of_mem_entries hp hc
          have inside := lt_size_of_live hu
          refine ih (a.nodes.size - c) (by omega) lowPath ?_ ?_ rfl
          · rw [sectionUnder?_concat, hx]
            exact found
          · rw [sectionUnder?_concat, hy]
            exact found'
        | attributeKind =>
          have values := value rfl
          rw [verbatim?_eq hu, verbatim?_eq hv] at values
          exact alike_of_attributes wfa wfb hu hv ⟨kind.trans kind'.symm,
            sameName_trans named (sameName_symm named'), by rw [values]⟩ kind
    · rw [ha.toTidy.filter_lowers_eq_nil live lowForm, hb.toTidy.filter_lowers_eq_nil live' lowForm]
      exact .nil

end Holds

end Configuration

end ConfTree
