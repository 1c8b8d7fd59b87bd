import ConfTree.Proofs.Merge.Calls
import ConfTree.Proofs.Merge.Growth
import ConfTree.Proofs.Operation.Frozen

/-!
# Attributes of one name

A merge pairs attributes of one name by their place: of those that a section has, the `k`-th takes
the value of the `k`-th in the source. Places are counted anew for every attribute of the source, in
a list that grows meanwhile, but in the end the list is an overlay, and an overlay combines the
members of each class in order. `AttributesLaid` says for every name and every place what comes out,
and the main statement, `attributes_laid`, says it of all sections that a merge comes to.
-/

namespace ConfTree

open ConfTree.Configuration ConfTree.Text

namespace Configuration

/-- The attributes of a section that have a name, in order. -/
def attributesNamed (conf : Configuration) (id : NodeId) (name : String) : List NodeId :=
  (conf.attributesOf id).filter (conf.hasName · name)

/-- How many attributes of its name stand before an attribute of a section. -/
def occurrence (conf : Configuration) (id x : Nat) : Nat :=
  (conf.attributesNamed id (conf.nameOf x)).idxOf x

/-- The attributes of the section `s` of the source are laid over those of the section `t`. -/
structure AttributesLaid (conf source : Configuration) (t s : Nat) (after : Configuration) :
    Prop where
  /-- The attributes are those that were there, and then new ones with the names and the values of
  those of the source that have too many of their name before them. -/
  lists : ∃ new, after.attributesOf t = conf.attributesOf t ++ new ∧
    (∀ x ∈ new, conf.nodes.size ≤ x) ∧
    new.map after.pairOf = ((source.attributesOf s).filter fun y =>
      (conf.attributesNamed t (source.nameOf y)).length ≤ source.occurrence s y).map source.pairOf
  names : ∀ x ∈ conf.attributesOf t, after.nameOf x = conf.nameOf x
  /-- The `k`-th attribute of a name has the value of the `k`-th in the source, if there is one. -/
  values : ∀ (name : String) (k x : Nat), (conf.attributesNamed t name)[k]? = some x →
    after.verbatim? x =
      ((source.attributesNamed s name)[k]?).elim (conf.verbatim? x) source.verbatim?

variable {conf conf' source after : Configuration} {t s id : Nat} {d e : NodeData}

/-! ## Attributes by their looks -/

/-- A live node is named by its own name, in any ASCII case. -/
lemma hasName_eq (h : conf.live? id = some d) (name : String) :
    conf.hasName id name = sameName (conf.nameOf id) name := by
  simp [hasName, nameOf, h]

/-- The attributes of a name are those that look so. -/
lemma filter_looks (wf : conf.WellFormed) (h : conf.live? id = some d) (name : String) :
    ((d.entries .attributeKind).map conf.pairOf).filter (sameAttribute (name, none)) =
      (conf.attributesNamed id name).map conf.pairOf := by
  rw [List.filter_map, attributesNamed, attributesOf_eq h]
  refine congrArg _ (List.filter_congr fun x hx => ?_)
  obtain ⟨e, live, -⟩ := wf.listed id d _ x h hx
  rw [hasName_eq live, sameName_comm]
  rfl

/-- The number of the attributes of a name is that of those that look so. -/
lemma countP_looks (wf : conf.WellFormed) (h : conf.live? id = some d)
    (y : String × Option String) :
    ((d.entries .attributeKind).map conf.pairOf).countP (sameAttribute · y) =
      (conf.attributesNamed id y.1).length := by
  have swap : (sameAttribute · y) = sameAttribute (y.1, none) := by
    funext x
    exact sameName_comm _ _
  rw [swap, List.countP_eq_length_filter, filter_looks wf h, List.length_map]

/-- A section whose list of attributes is longer has the same ones of a name first. -/
lemma attributesNamed_append (wf : conf.WellFormed) (h : conf.live? t = some d)
    (names : ∀ x ∈ conf.attributesOf t, after.nameOf x = conf.nameOf x)
    (live : ∀ x ∈ conf.attributesOf t, ∃ e, after.live? x = some e) {new : List NodeId}
    (lists : after.attributesOf t = conf.attributesOf t ++ new) (name : String) :
    after.attributesNamed t name =
      conf.attributesNamed t name ++ new.filter (after.hasName · name) := by
  rw [attributesNamed, lists, List.filter_append, attributesNamed]
  refine congrArg (· ++ _) (List.filter_congr fun x hx => ?_)
  obtain ⟨e, he⟩ := live x hx
  rw [hasName_eq he, names x hx]
  rw [attributesOf_eq h] at hx
  obtain ⟨f, hf, -⟩ := wf.listed t d _ x h hx
  rw [hasName_eq hf]

/-- The attributes of a name are those of this name in other letters. -/
lemma attributesNamed_congr {m n : String} (same : sameName m n = true) :
    conf.attributesNamed id m = conf.attributesNamed id n := by
  refine List.filter_congr fun x _ => ?_
  simp only [hasName]
  cases conf.live? x with
  | none => rfl
  | some d => exact sameName_congr_right same d.name

/-- An attribute that is found by a name and a place has this name, and this place. -/
lemma of_getElem?_attributesNamed (wf : conf.WellFormed) (h : conf.live? id = some d)
    {name : String} {k x : Nat} (found : (conf.attributesNamed id name)[k]? = some x) :
    x ∈ d.entries .attributeKind ∧ sameName (conf.nameOf x) name = true ∧
      conf.occurrence id x = k := by
  obtain ⟨lt, at'⟩ := List.getElem?_eq_some_iff.1 found
  obtain ⟨hm, named⟩ := List.mem_filter.1 (List.mem_of_getElem? found)
  rw [attributesOf_eq h] at hm
  obtain ⟨e, live, -⟩ := wf.listed id d _ x h hm
  rw [hasName_eq live] at named
  have nodup : (conf.attributesNamed id name).Nodup := by
    rw [attributesNamed, attributesOf_eq h]
    exact (wf.nodup_entries h .attributeKind).filter _
  refine ⟨hm, named, ?_⟩
  rw [occurrence, attributesNamed_congr named, ← at', nodup.idxOf_getElem]

/-- A section that was extended has its attributes under their names, and then new ones. -/
lemma Extends.attributesOf {P : String × Option String → Prop} (wf : conf.WellFormed)
    (extends' : Extends P conf after) (h : conf.live? t = some d) :
    ∃ new, after.attributesOf t = conf.attributesOf t ++ new ∧
      (∀ x ∈ new, conf.nodes.size ≤ x) ∧
      ∀ x ∈ conf.attributesOf t,
        (∃ e, after.live? x = some e) ∧ after.nameOf x = conf.nameOf x := by
  obtain ⟨e, he, -, -, -, entries⟩ := extends'.kept t d h
  obtain ⟨new, longer, fresh⟩ := entries .attributeKind
  refine ⟨new, by rw [attributesOf_eq he, longer, attributesOf_eq h], fresh, fun x hx => ?_⟩
  rw [attributesOf_eq h] at hx
  obtain ⟨f, hf, -⟩ := wf.listed t d _ x h hx
  obtain ⟨g, hg, name, -⟩ := extends'.kept x f hf
  exact ⟨⟨g, hg⟩, by rw [nameOf_eq hg, nameOf_eq hf, name]⟩

/-- An attribute of a section that was extended has the place that it had. -/
lemma Extends.occurrence {P : String × Option String → Prop} (wf : conf.WellFormed)
    (extends' : Extends P conf after) (h : conf.live? t = some d) {x : Nat}
    (hx : x ∈ conf.attributesOf t) : after.occurrence t x = conf.occurrence t x := by
  obtain ⟨new, lists, -, kept⟩ := extends'.attributesOf wf h
  have own : x ∈ conf.attributesNamed t (conf.nameOf x) := by
    refine List.mem_filter.2 ⟨hx, ?_⟩
    rw [attributesOf_eq h] at hx
    obtain ⟨e, live, -⟩ := wf.listed t d _ x h hx
    rw [hasName_eq live, sameName_refl]
  rw [Configuration.occurrence, Configuration.occurrence, (kept x hx).2,
    attributesNamed_append wf h (fun y hy => (kept y hy).2) (fun y hy => (kept y hy).1) lists,
    List.idxOf_append_of_mem own]

/-! ## Overlays of attributes -/

/-- If a section has only got longer lists, and its attributes look like an overlay, then those of
the source are laid over its own. -/
lemma AttributesLaid.of_overlay (wf : conf.WellFormed) (wfs : source.WellFormed)
    (h : conf.live? t = some d) (hs : source.live? s = some e) {P : String × Option String → Prop}
    (extends' : Extends P conf after)
    (laid : (after.shape t).attributes = overlay sameAttribute takeValue
      ((d.entries .attributeKind).map conf.pairOf)
      ((e.entries .attributeKind).map source.pairOf)) :
    AttributesLaid conf source t s after := by
  obtain ⟨f, hf, -⟩ := extends'.kept t d h
  obtain ⟨new, lists, fresh, kept⟩ := extends'.attributesOf wf h
  have longer : f.entries .attributeKind = d.entries .attributeKind ++ new := by
    rw [← attributesOf_eq hf, lists, attributesOf_eq h]
  have looks : (f.entries .attributeKind).map after.pairOf = _ :=
    (congrArg Shape.attributes (shape_eq extends'.wellFormed hf)).symm.trans laid
  refine ⟨⟨new, lists, fresh, ?_⟩, fun x hx => (kept x hx).2, fun name k x hx => ?_⟩
  · -- Behind the old list stands what the overlay has left over.
    have rest := congrArg (List.drop (d.entries .attributeKind).length) looks
    have length : (d.entries .attributeKind).length =
        ((d.entries .attributeKind).map conf.pairOf).length := by
      rw [List.length_map]
    rw [longer, List.map_append, List.drop_left' (by rw [List.length_map]), length, drop_overlay,
      classes_attributes.leftOver_map (fun _ => sameName_refl _) _ _
        (wfs.nodup_entries hs .attributeKind)] at rest
    rw [rest, attributesOf_eq hs]
    refine congrArg _ (List.filter_congr fun y _ => ?_)
    have places : ((e.entries .attributeKind).filter fun z =>
        sameAttribute (source.pairOf z) (source.pairOf y)) =
        source.attributesNamed s (source.nameOf y) := by
      rw [attributesNamed, attributesOf_eq hs]
      refine List.filter_congr fun z hz => ?_
      obtain ⟨g, hg, -⟩ := wfs.listed s e _ z hs hz
      exact (hasName_eq hg _).symm
    rw [countP_looks wf h, places]
    rfl
  · -- The attribute has the same place among those of its name in the longer list.
    have place : (after.attributesNamed t name)[k]? = some x := by
      rw [attributesNamed_append wf h (fun x hx => (kept x hx).2) (fun x hx => (kept x hx).1) lists,
        List.getElem?_append_left (List.getElem?_eq_some_iff.1 hx).1, hx]
    have combined := congrArg (fun l => (l.filter (sameAttribute (name, none)))[k]?) looks
    simp only [classes_attributes.getElem?_filter_overlay] at combined
    rw [filter_looks extends'.wellFormed hf, filter_looks wf h, filter_looks wfs hs,
      List.getElem?_map, List.getElem?_map, List.getElem?_map, place, hx, Option.map_some,
      Option.map_some, pairUp, Option.some.injEq] at combined
    have value := congrArg Prod.snd combined
    cases hy : (source.attributesNamed s name)[k]? with
    | none =>
      rw [hy] at value
      exact value
    | some y =>
      rw [hy] at value
      exact value

/-- Attributes stay laid as long as the section keeps them. -/
lemma AttributesLaid.keep (laid : AttributesLaid conf source t s conf')
    (keeps : KeepsOwn t conf' after) : AttributesLaid conf source t s after := by
  obtain ⟨⟨new, lists, fresh, looks⟩, names, values⟩ := laid
  have same : ∀ x, x ∈ conf.attributesOf t ∨ x ∈ new → after.live? x = conf'.live? x := by
    intro x hx
    refine keeps.same x ?_
    rw [lists]
    exact List.mem_append.2 hx
  refine ⟨⟨new, keeps.attributes.trans lists, fresh, ?_⟩, fun x hx => ?_, fun name k x hx => ?_⟩
  · rw [← looks]
    refine List.map_congr_left fun x hx => ?_
    rw [pairOf, pairOf, nameOf, nameOf, Configuration.verbatim?, Configuration.verbatim?,
      same x (.inr hx)]
  · rw [← names x hx, nameOf, nameOf, same x (.inl hx)]
  · have hm := List.mem_of_mem_filter (List.mem_of_getElem? hx)
    rw [← values name k x hx, Configuration.verbatim?, Configuration.verbatim?, same x (.inl hm)]

/-- Whether a configuration is writable does not count for what its attributes are laid over. -/
lemma AttributesLaid.of_unfrozen (laid : AttributesLaid conf.unfrozen source t s conf.unfrozen) :
    AttributesLaid conf source t s conf :=
  ⟨laid.lists, laid.names, laid.values⟩

end Configuration

/-! ## Merges of attributes -/

namespace Edit

variable {process : Host} {rules : Rules} {source conf mid after : Configuration}
  {t target : Nat} {u : Subtree}

/-- The attributes of a section of the source look as they do in the arena. -/
lemma pairs_attributes (wfs : source.WellFormed) (taken : TakenFrom source u) :
    ∃ e, source.live? u.id = some e ∧
      u.attributes.map Attribute.pair = (e.entries .attributeKind).map source.pairOf := by
  obtain ⟨e, live, -⟩ := taken.2
  refine ⟨e, live, ?_⟩
  rw [← taken.map_attributesOf wfs, attributesOf_eq live, List.map_map]
  rfl

/-- A merge of attributes removes nothing. -/
lemma extends_own (wf : conf.WellFormed) (sec : conf.isSection t = true) (value : Option String)
    {attributes : List Attribute} (good : ∀ a ∈ attributes, GoodName a.name) :
    Extends (fun _ => True) conf ((mergeValue t value >>= fun _ =>
      mergeAttributes t [] attributes).apply conf).2 := by
  obtain ⟨d, h, kind⟩ := isSection_iff.1 sec
  exact extends_mergeOwn (fun _ _ => trivial) good (fun _ _ => trivial) wf
    (fun _ _ _ _ => trivial) h
    kind value

section

variable (wf : conf.WellFormed) (wfs : source.WellFormed) (sec : conf.isSection t = true)
  (taken : TakenFrom source u)

include wf wfs sec taken

/-- A merge of attributes into a writable configuration succeeds, and lays them over the others. -/
lemma laid_mergeAttributes (writable : conf.readOnly = false) :
    ∃ after, (mergeAttributes t [] u.attributes).apply conf = (.ok (), after) ∧
      AttributesLaid conf source t u.id after := by
  obtain ⟨d, h, kind⟩ := isSection_iff.1 sec
  obtain ⟨e, live, looks⟩ := pairs_attributes wfs taken
  have good : ∀ a ∈ u.attributes, GoodName a.name := by
    cases u
    exact (taken.named wfs).2.1
  obtain ⟨after, run, -, shape, -⟩ :=
    mergeAttributes_spec good wf writable h kind (overlay_nil _).symm
  have grown : Extends (fun _ => True) conf ((mergeAttributes t [] u.attributes).apply conf).2 :=
    extends_mergeAttributes (fun _ _ => trivial) good (fun _ _ => trivial) [] wf
      (fun _ _ _ _ => trivial) h kind
  have run' : (mergeAttributes t [] u.attributes).apply conf = (.ok (), after) := run
  rw [run'] at grown
  refine ⟨after, run', .of_overlay wf wfs h live grown ?_⟩
  rw [shape, List.nil_append, looks, shape_eq wf h]
  rfl

/-- A merge that succeeds with a policy that lets attributes be merged lays them over the others. -/
lemma laid_mergeSection (writable : conf.readOnly = false) {policy : Policy}
    (declared : conf.policyOf process rules t = .ok policy)
    (merges : policy = .all ∨ policy = .attributes)
    (run : (mergeSection process rules source t u).apply conf = (.ok (), after)) :
    AttributesLaid conf source t u.id after := by
  obtain ⟨d, h, kind⟩ := isSection_iff.1 sec
  obtain ⟨e, live, looks⟩ := pairs_attributes wfs taken
  obtain ⟨id, name, value, attributes, children⟩ := u
  obtain ⟨-, good, goodChildren⟩ := taken.named wfs
  obtain ⟨conf₁, conf₂, run₁, run₂, confined, shape, -⟩ :=
    mergeOwn_spec (.mk id name value attributes children) wf writable h kind good
  rw [Subtree.value] at run₁
  rw [Subtree.attributes] at run₂
  have grown := extends_own wf sec value good
  rw [apply_bind_ok run₁, run₂] at grown
  have laid : AttributesLaid conf source t id conf₂ := by
    refine .of_overlay wf wfs h live grown ?_
    rw [shape, ← looks, shape_eq wf h]
    rfl
  rw [mergeSection, apply_bind, apply_look, declared] at run
  rcases merges with rfl | rfl
  · -- What comes behind the attributes leaves them.
    obtain ⟨d₂, h₂, kind₂, -⟩ := confined.kept d h
    have keeps : KeepsOwn t conf₂ ((mergeSections process rules source t children).apply conf₂).2 :=
      keepsOwn_mergeSections goodChildren confined.wellFormed (confined.readOnly.trans writable) h₂
        (kind₂.trans kind)
    have rest := ((apply_bind_ok run₁).trans (apply_bind_ok run₂)).symm.trans run
    rw [rest] at keeps
    exact laid.keep keeps
  · have last := ((apply_bind_ok run₁).trans run₂).symm.trans run
    cases last
    exact laid

end

/-! ## Sections that a merge comes to -/

/-- A section that was live before a merge of a child section into it is still live. -/
lemma isSection_mergeNext (wf : conf.WellFormed) (named : u.Named)
    (sec : conf.isSection target = true) {out : Except ConfigError Unit}
    (run : (mergeNext process rules source target u).apply conf = (out, after)) :
    after.isSection target = true := by
  cases access : conf.readOnly with
  | true =>
    rw [(Makes.mergeNext process rules source target u).frozen access run]
    exact sec
  | false =>
    obtain ⟨d, h, kind⟩ := isSection_iff.1 sec
    have confined := confined_mergeNext named wf access h kind run
    obtain ⟨e, he, kind', -⟩ := confined.kept d h
    exact isSection_iff.2 ⟨e, he, kind'.trans kind⟩

mutual

/-- What a merge comes to is a section of the source, and a section of what the configuration has
become. -/
lemma Meets.found (wfs : source.WellFormed) :
    ∀ {t : Subtree} {conf : Configuration} {target s : Nat}, conf.WellFormed →
    conf.isSection target = true → TakenFrom source t →
    Meets process rules source conf target t mid s u →
    mid.isSection s = true ∧ TakenFrom source u
  | .mk _ _ value attributes _, conf, target, s, wf, sec, taken, meets => by
    cases meets with
    | self => exact ⟨sec, taken⟩
    | sections _ among => exact among.found wfs wf sec (taken.child wfs)
    | all _ run₁ run₂ among =>
      obtain ⟨d, h, kind⟩ := isSection_iff.1 sec
      have grown := extends_own wf sec value (taken.named wfs).2.1
      rw [apply_bind_ok run₁, run₂] at grown
      exact among.found wfs grown.wellFormed (isSection_iff.2 (grown.live_section h kind))
        (taken.child wfs)

/-- Sections that meet are a section of the target and one of the source. -/
lemma MeetsAmong.found (wfs : source.WellFormed) : ∀ {ts : List Subtree} {conf : Configuration}
    {target s : Nat}, conf.WellFormed → conf.isSection target = true →
    (∀ t ∈ ts, TakenFrom source t) → MeetsAmong process rules source conf target ts mid s u →
    mid.isSection s = true ∧ TakenFrom source u
  | [], _, _, _, _, _, _, among => nomatch among
  | t :: ts, conf, target, s, wf, sec, taken, among => by
    have taken' := taken t List.mem_cons_self
    cases among with
    | first found meets =>
      obtain ⟨d, hd, -⟩ := isSection_iff.1 sec
      obtain ⟨-, e, live, kind⟩ := live_of_matchOf wf hd found
      exact meets.found wfs wf (isSection_iff.2 ⟨e, live, kind⟩) taken'
    | next run among =>
      exact among.found wfs
        (wf.changes ((Makes.mergeNext process rules source target t).of_run run))
        (isSection_mergeNext wf (taken'.named wfs) sec run)
        fun x hx => taken x (List.mem_cons_of_mem _ hx)

end

end Edit

/-! ## All merges -/

namespace Configuration

variable {process : Host} {rules : Rules} {source conf mid : Configuration}
  {target node t : Nat} {u : Subtree}

/-- Wherever a merge of a section of the source comes to merge a section `u` into a section `t`, and
this may be the first thing that it does, the attributes of `u` can be laid over those of `t` as far
as the configuration is writable, and after that, or after a merge of all of `u` that succeeds with
a policy that lets attributes be merged, they are laid over them: for every name the `k`-th
attribute of `t` has the value of the `k`-th in `u`, if there is one, and keeps its own otherwise,
and those of `u` for which `t` has too few come last. -/
theorem attributes_laid (reach : Reachable conf) (reach' : Reachable source)
    (sec : conf.isSection target = true) (sec' : source.isSection node = true)
    (meets : Edit.Meets process rules source conf target (source.subtree node) mid t u) :
    (mid.readOnly = false →
      ((Edit.mergeAttributes t [] u.attributes).apply mid).1 = .ok ()) ∧
    (∀ after, (Edit.mergeAttributes t [] u.attributes).apply mid = (.ok (), after) →
      AttributesLaid mid source t u.id after) ∧
    ∀ policy after, mid.policyOf process rules t = .ok policy →
      policy = .all ∨ policy = .attributes →
      (Edit.mergeSection process rules source t u).apply mid = (.ok (), after) →
        AttributesLaid mid source t u.id after := by
  have wf := reach.wellFormed.changes meets.changes
  have wfs := reach'.wellFormed
  obtain ⟨e, live, kind⟩ := isSection_iff.1 sec'
  obtain ⟨found, taken⟩ :=
    meets.found wfs reach.wellFormed sec (takenFrom_subtree live kind)
  have open' : mid.unfrozen.WellFormed := wf.of_nodes_eq rfl
  refine ⟨fun writable => ?_, fun after run => ?_, fun policy after declared merges run => ?_⟩
  · obtain ⟨after, run, -⟩ := Edit.laid_mergeAttributes wf wfs found taken writable
    rw [run]
  · cases access : mid.readOnly with
    | false =>
      obtain ⟨after', run', laid⟩ := Edit.laid_mergeAttributes wf wfs found taken access
      rw [run] at run'
      cases run'
      exact laid
    | true =>
      -- A merge that passes has nothing to do in a writable copy.
      obtain ⟨rfl, idle⟩ := Edit.Idle.mergeAttributes t [] u.attributes mid access () after run
      obtain ⟨after', run', laid⟩ := Edit.laid_mergeAttributes open' wfs found taken rfl
      rw [idle] at run'
      cases run'
      exact laid.of_unfrozen
  · cases access : mid.readOnly with
    | false => exact Edit.laid_mergeSection wf wfs found taken access declared merges run
    | true =>
      obtain ⟨rfl, idle⟩ := Edit.Idle.mergeSection process rules source t u mid access () after run
      rw [← (sameTree_unfrozen after).policyOf process rules t] at declared
      exact (Edit.laid_mergeSection open' wfs found taken rfl declared merges idle).of_unfrozen

/-- Of three attributes of one name in the source the first two go to those of the target, one of
them in other letters and one without a value, and the third one comes last. -/
theorem attributes_laid_interleaved :
    let conf := (withRoot "base").operateAll
      [(.bare, .addAttribute 0 "Path" (some "/a")), (.bare, .addAttribute 0 "mode" (some "rw")),
        (.bare, .addAttribute 0 "PATH" (some "/b"))]
    let source := (withRoot "layer").operateAll
      [(.bare, .addAttribute 0 "path" none), (.bare, .addAttribute 0 "user" (some "me")),
        (.bare, .addAttribute 0 "pATH" (some "/c")), (.bare, .addAttribute 0 "Path" (some "/d"))]
    let after := ((Edit.mergeSection .bare .standard source 0 (source.subtree 0)).apply conf).2
    AttributesLaid conf source 0 0 after ∧
      (after.attributesOf 0).map after.pairOf = [("Path", none), ("mode", some "rw"),
        ("PATH", some "/c"), ("user", some "me"), ("Path", some "/d")] := by
  intro conf source after
  have reach : Reachable conf :=
    (Reachable.withRoot "base").operateAll _ (by simp [Operation.others])
  have reach' : Reachable source :=
    (Reachable.withRoot "layer").operateAll _ (by simp [Operation.others])
  have ok : ((Edit.mergeSection .bare .standard source 0 (source.subtree 0)).apply conf).1 =
      .ok () := by decide +kernel
  have meets : Edit.Meets .bare .standard source conf 0 (source.subtree 0) conf 0
      (source.subtree 0) := .self
  have laid := (attributes_laid reach reach' (by decide +kernel) (by decide +kernel) meets).2.2
    .all after (by decide +kernel) (.inl rfl) (Prod.ext ok rfl)
  rw [id_subtree] at laid
  exact ⟨laid, by decide +kernel⟩

end Configuration

end ConfTree
