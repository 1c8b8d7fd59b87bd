import ConfTree.Document.Text
import ConfTree.Proofs.Document.Reading
import ConfTree.Proofs.Operation.Documents
import ConfTree.Proofs.Tree.Regrouping
import Mathlib

/-!
# Table round trips

A section that is written as a table, with the fields of all tables in any order, is read back
regrouped (`sectionFields_regrouped`): entries of one name were folded into one field in their
order, and are unfolded into attributes and sections again. So both formats that write tables read
back what they wrote (`read_write_tables`).
-/

namespace ConfTree.Document

open ConfTree.Configuration ConfTree.Text

variable {σ : Type} {r : Reading σ} {ofText : Option String → σ}
  {becomes : Option String → Option String} {k : String} {fields : List (String × Data σ)}

/-- What the format makes of values: those of attributes come back as it is given, those of
sections as they were. -/
structure Faithful (r : Reading σ) (ofText : Option String → σ)
    (becomes : Option String → Option String) : Prop where
  scalar : ∀ value, r.scalarText (ofText value) = becomes value
  own : ∀ v, r.dataText (.scalar (ofText (some v))) = some v
  blank : ∀ value, nonEmpty? (becomes value) = nonEmpty? value

/-! ## Reading one name -/

/-- Of what fields are read as, the entries of a name are those in the field of the name. -/
lemma filter_entries {γ : Type} {name : γ → String} {g : String → Data σ → List γ}
    (named : ∀ key data, ∀ x ∈ g key data, name x = key) (k : String)
    (fields : List (String × Data σ)) :
    (fields.flatMap fun f => if f.1 = sectionValueKey then [] else f.2.items.flatMap (g f.1)).filter
        (fun x => sameName (name x) k) =
      (fields.filter (isFor k)).flatMap
        fun f => if f.1 = sectionValueKey then [] else f.2.items.flatMap (g f.1) := by
  induction fields with
  | nil => rfl
  | cons f fields ih =>
    have keyed : ∀ x ∈ (if f.1 = sectionValueKey then [] else f.2.items.flatMap (g f.1)),
        name x = f.1 := by
      intro x hx
      split at hx
      · cases hx
      · obtain ⟨data, -, hx⟩ := List.mem_flatMap.1 hx
        exact named f.1 data x hx
    rw [List.flatMap_cons, List.filter_append, ih, List.filter_cons]
    cases same : isFor k f with
    | true =>
      rw [List.filter_eq_self.2 fun x hx => by rw [keyed x hx]; exact same]
      rfl
    | false =>
      rw [List.filter_eq_nil_iff.2 fun x hx => by rw [keyed x hx]; exact Bool.eq_false_iff.1 same]
      rfl

/-- The attributes of a field have its key as their name. -/
lemma name_attributesIn (key : String) (data : Data σ) :
    ∀ a ∈ attributesIn r key data, a.1 = key := by
  cases data with
  | scalar s => simp [attributesIn]
  | array items => simp [attributesIn]
  | table fields => simp [attributesIn]

mutual

/-- The sections of a field have its key as their name. -/
lemma name_sectionsIn (key : String) : ∀ data : Data σ, ∀ s ∈ sectionsIn r key data, s.name = key
  | .scalar _ => by simp [sectionsIn]
  | .array items => name_sectionsInAll key items
  | .table fields => by simp [sectionsIn, Shape.name]

/-- The sections in the items of a field have its key as their name. -/
lemma name_sectionsInAll (key : String) :
    ∀ items : List (Data σ), ∀ s ∈ sectionsInAll r key items, s.name = key
  | [], _, hs => by cases hs
  | item :: items, s, hs => by
    rw [sectionsInAll] at hs
    rcases List.mem_append.1 hs with hs | hs
    · exact name_sectionsIn key item s hs
    · exact name_sectionsInAll key items s hs

end

/-- The reserved fields leave the value of the last of them. -/
lemma ownValue_eq (fields : List (String × Data σ)) (value : Option String) :
    ownValue r value fields =
      (fields.filter (·.1 = sectionValueKey)).foldl (fun _ f => r.dataText f.2) value := by
  induction fields generalizing value with
  | nil => rfl
  | cons f fields ih =>
    obtain ⟨key, data⟩ := f
    rw [ownValue, ih]
    by_cases reserved : key = sectionValueKey
    · rw [if_pos reserved, List.filter_cons_of_pos (by simp [reserved])]
      rfl
    · rw [if_neg reserved, List.filter_cons_of_neg (by simp [reserved])]

/-- Entries of one name that are written as scalars and tables are read as attributes and
sections. -/
lemma entries_read (faithful : Faithful r ofText becomes) (key : String)
    {attributes : List Attribute} {children : List Subtree} {items : List (Data σ)}
    (h : List.Forall₂ Rearranged
      (attributes.map (fun a => .scalar (ofText a.value)) ++
        children.map fun c => .table (sectionFields ofText c)) items)
    (deeper : ∀ c ∈ children, ∀ fields,
      Rearranged (.table (sectionFields ofText c)) (.table fields) →
        ReadableFields fields ∧ Regrouped becomes c.shape (sectionOf r key fields)) :
    (∀ item ∈ items, ReadableItem item) ∧
      List.Forall₂ (fun a b => becomes a.value = b.2) attributes
        (items.flatMap (attributesIn r key)) ∧
      List.Forall₂ (fun c s => Regrouped becomes c.shape s) children
        (items.flatMap (sectionsIn r key)) := by
  induction attributes generalizing items with
  | nil =>
    induction children generalizing items with
    | nil =>
      cases h
      exact ⟨nofun, .nil, .nil⟩
    | cons c children ih =>
      obtain ⟨item, rest, table, tables, rfl⟩ := List.forall₂_cons_left_iff.1 h
      cases table with
      | @table _ mid fields same order =>
        obtain ⟨readable, regrouped⟩ := deeper c List.mem_cons_self fields (.table same order)
        obtain ⟨all, none, sections⟩ := ih (fun x hx => deeper x (List.mem_cons_of_mem _ hx)) tables
        exact ⟨List.forall_mem_cons.2 ⟨readable, all⟩, none, .cons regrouped sections⟩
  | cons a attributes ih =>
    obtain ⟨item, rest, scalar, others, rfl⟩ := List.forall₂_cons_left_iff.1 h
    cases scalar
    obtain ⟨all, values, sections⟩ := ih others
    exact ⟨List.forall_mem_cons.2 ⟨trivial, all⟩,
      .cons (faithful.scalar a.value).symm values, sections⟩

section

variable {t : Subtree} (named : t.Named)
  (h : Rearranged (.table (sectionFields ofText t)) (.table fields))

include named h

/-- The fields of a section have keys that are told apart, in any order. -/
lemma folded_rearranged : Folded (fields.map Prod.fst) := h.keys (folded_sectionFields named)

variable (keeps : KeepsKey t.shape)

include keeps

/-- The value of a section is all that stands under the reserved key. -/
lemma own_rearranged : List.Forall₂ RearrangedField (ownField ofText t.value)
    (fields.filter (·.1 = sectionValueKey)) := by
  rw [← own_sectionFields named keeps]
  exact h.filter_key (folded_sectionFields named) sectionValueKey

/-- The value of a section is read back. -/
lemma ownValue_sectionFields (faithful : Faithful r ofText becomes) :
    ownValue r none fields = t.value := by
  have own := own_rearranged named h keeps
  rw [ownValue_eq]
  cases value : t.value with
  | none =>
    rw [value] at own
    rw [List.forall₂_nil_left_iff.1 own]
    rfl
  | some v =>
    rw [value] at own
    obtain ⟨f, rest, first, nothing, eq⟩ := List.forall₂_cons_left_iff.1 own
    obtain rfl := List.forall₂_nil_left_iff.1 nothing
    cases first with
    | mk scalar =>
      cases scalar
      rw [eq]
      exact faithful.own v

/-- The value of a section stands under no other key than the reserved one. -/
lemma itemsNamed_own {f : String × Data σ} (hf : f ∈ fields) (hr : f.1 ≠ sectionValueKey) :
    itemsNamed f.1 (ownField ofText t.value) = [] := by
  cases value : t.value with
  | none => rfl
  | some v =>
    have own := own_rearranged named h keeps
    rw [value] at own
    obtain ⟨g, rest, -, -, eq⟩ := List.forall₂_cons_left_iff.1 own
    obtain ⟨hg, reserved⟩ := List.mem_filter.1 (eq ▸ List.mem_cons_self : g ∈ _)
    have reserved : g.1 = sectionValueKey := of_decide_eq_true reserved
    -- Two fields of one name are one field, and the other one is reserved.
    have apart : sameName sectionValueKey f.1 = false := by
      refine Bool.eq_false_iff.2 fun same => hr ?_
      have folded := folded_rearranged named h
      have found := folded.filter_eq hf (sameName_refl f.1)
      have both := List.mem_filter.2 ⟨hg, (by rwa [isFor, reserved] : isFor f.1 g = true)⟩
      rw [found] at both
      rw [← List.mem_singleton.1 both, reserved]
    simp [itemsNamed, ownField, isFor, apart]

/-- A name without a field of another key than the reserved one is that of no entry of the
section. -/
lemma no_entries (only : ∀ f ∈ fields, isFor k f = true → f.1 = sectionValueKey) :
    t.attributes.filter (fun a => sameName a.name k) = [] ∧
      t.children.filter (fun c => sameName c.name k) = [] := by
  have folded := folded_rearranged named h
  obtain nothing | ⟨f, hf, same, -⟩ := folded.field k
  · have items := h.itemsNamed (folded_sectionFields named) k
    rw [itemsNamed_sectionFields named, itemsNamed, itemsNamed, nothing, List.flatMap_nil,
      List.forall₂_nil_right_iff, List.append_eq_nil_iff, List.append_eq_nil_iff,
      List.map_eq_nil_iff, List.map_eq_nil_iff] at items
    exact items.2
  · -- The reserved key is there, so it holds the value of the section and no entry has its name.
    have reserved := only f hf same
    have own := own_rearranged named h keeps
    have there : f ∈ fields.filter (·.1 = sectionValueKey) :=
      List.mem_filter.2 ⟨hf, decide_eq_true reserved⟩
    have valued : t.shape.value ≠ none := by
      intro none
      have value : t.value = Option.none := by
        cases t
        exact none
      rw [value] at own
      rw [List.forall₂_nil_left_iff.1 own] at there
      cases there
    have other : ∀ e ∈ entriesOf ofText t, ¬ sameName e.1 k = true := by
      intro e he same'
      have free := keeps.valued valued e.1 (names_entriesOf ofText t ▸ List.mem_map_of_mem he)
      rw [← reserved, sameName_trans same' (sameName_symm same)] at free
      cases free
    constructor
    · exact List.filter_eq_nil_iff.2 fun a ha =>
        other _ (List.mem_append_left _ (List.mem_map_of_mem ha))
    · exact List.filter_eq_nil_iff.2 fun c hc =>
        other _ (List.mem_append_right _ (List.mem_map_of_mem hc))

variable (deeper : ∀ c ∈ t.children, ∀ fields,
  Rearranged (.table (sectionFields ofText c)) (.table fields) →
    ReadableFields fields ∧ ∀ name, sameName c.name name = true →
      Regrouped becomes c.shape (sectionOf r name fields))

include deeper

/-- A field of a section that is not reserved is read as the entries of its name. -/
lemma field_read (faithful : Faithful r ofText becomes) {f : String × Data σ} (hf : f ∈ fields)
    (hr : f.1 ≠ sectionValueKey) :
    GoodName f.1 ∧ (∀ item ∈ f.2.items, ReadableItem item) ∧
      List.Forall₂ (fun a b => becomes a.value = b.2)
        (t.attributes.filter fun a => sameName a.name f.1)
        (f.2.items.flatMap (attributesIn r f.1)) ∧
      List.Forall₂ (fun c s => Regrouped becomes c.shape s)
        (t.children.filter fun c => sameName c.name f.1)
        (f.2.items.flatMap (sectionsIn r f.1)) := by
  have folded := folded_rearranged named h
  have items := h.itemsNamed (folded_sectionFields named) f.1
  rw [itemsNamed_sectionFields named, itemsNamed_own named h keeps hf hr, List.nil_append,
    itemsNamed, folded.filter_eq hf (sameName_refl f.1), List.flatMap_singleton] at items
  refine ⟨folded.good f.1 (List.mem_map_of_mem hf),
    entries_read faithful f.1 items fun c hc fields hd => ?_⟩
  obtain ⟨hc, same⟩ := List.mem_filter.1 hc
  obtain ⟨readable, regrouped⟩ := deeper c hc fields hd
  exact ⟨readable, regrouped f.1 same⟩

/-- The entries of every name are read back in their order. -/
lemma name_read (faithful : Faithful r ofText becomes) (k : String) :
    List.Forall₂ (fun a b => becomes a.value = b.2) (t.attributes.filter fun a => sameName a.name k)
        ((attributesOf r fields).filter fun a => sameName a.1 k) ∧
      List.Forall₂ (fun c s => Regrouped becomes c.shape s)
        (t.children.filter fun c => sameName c.name k)
        ((sectionsOf r fields).filter fun s => sameName s.name k) := by
  rw [attributesOf, sectionsOf_eq, filter_entries name_attributesIn,
    filter_entries name_sectionsIn]
  have folded := folded_rearranged named h
  obtain nothing | ⟨f, hf, same, one⟩ := folded.field k
  · have free : ∀ f ∈ fields, isFor k f = true → f.1 = sectionValueKey :=
      fun f hf same => absurd same (List.filter_eq_nil_iff.1 nothing f hf)
    obtain ⟨attributes, children⟩ := no_entries named h keeps free
    rw [nothing, attributes, children]
    exact ⟨.nil, .nil⟩
  · rw [one, List.flatMap_singleton, List.flatMap_singleton]
    by_cases reserved : f.1 = sectionValueKey
    · have only : ∀ g ∈ fields, isFor k g = true → g.1 = sectionValueKey := by
        intro g hg same'
        have found := List.mem_filter.2 ⟨hg, same'⟩
        rw [one] at found
        rw [List.mem_singleton.1 found, reserved]
      obtain ⟨attributes, children⟩ := no_entries named h keeps only
      rw [if_pos reserved, if_pos reserved, attributes, children]
      exact ⟨.nil, .nil⟩
    · -- The name and the key of its field are the names of the same entries.
      have alike : ∀ name, sameName name k = sameName name f.1 := fun name =>
        (sameName_congr_right same name).symm
      obtain ⟨-, -, attributes, children⟩ :=
        field_read named h keeps deeper faithful hf reserved
      simp only [if_neg reserved, alike]
      exact ⟨attributes, children⟩

end

/-! ## Reading sections -/

mutual

/-- The table of a section, with its fields in any order, is read as the section regrouped. -/
lemma sectionFields_regrouped (faithful : Faithful r ofText becomes) :
    ∀ (t : Subtree), t.Named → Unmistakable t.shape → ∀ fields,
      Rearranged (.table (sectionFields ofText t)) (.table fields) →
        ReadableFields fields ∧ ∀ name, sameName t.name name = true →
          Regrouped becomes t.shape (sectionOf r name fields)
  | .mk id name value attributes children, named, unmistakable, fields, h => by
    have keeps := unmistakable _ (Shape.mem_sections_self _)
    have deeper : ∀ c ∈ children, ∀ fields,
        Rearranged (.table (sectionFields ofText c)) (.table fields) →
          ReadableFields fields ∧ ∀ name, sameName c.name name = true →
            Regrouped becomes c.shape (sectionOf r name fields) := by
      intro c hc
      refine sectionFields_regrouped_all faithful children c hc (named.2.2.of_mem hc) ?_
      intro s hs
      refine unmistakable s ?_
      rw [Subtree.shape, Subtree.shapes_eq_map]
      exact List.mem_cons_of_mem _ (Shape.mem_sectionsOf.2 ⟨_, List.mem_map_of_mem hc, hs⟩)
    constructor
    · refine readableFields_iff.2 fun f hf => ?_
      by_cases reserved : f.1 = sectionValueKey
      · exact .inl reserved
      · obtain ⟨good, readable, -⟩ :=
          field_read named h keeps deeper faithful hf reserved
        exact .inr ⟨good, readable⟩
    · intro name' same
      have own := ownValue_sectionFields named h keeps faithful
      rw [sectionOf, own, Subtree.shape, Subtree.shapes_eq_map]
      refine .mk same (fun k => ?_) fun k => ?_
      · rw [List.filter_map, List.forall₂_map_left_iff]
        exact (name_read named h keeps deeper faithful k).1
      · rw [List.filter_map, List.forall₂_map_left_iff]
        simp only [Function.comp_def, Subtree.name_shape]
        exact (name_read named h keeps deeper faithful k).2

/-- The tables of sections are read as the sections regrouped. -/
lemma sectionFields_regrouped_all (faithful : Faithful r ofText becomes) :
    ∀ (ts : List Subtree), ∀ t ∈ ts, t.Named → Unmistakable t.shape → ∀ fields,
      Rearranged (.table (sectionFields ofText t)) (.table fields) →
        ReadableFields fields ∧ ∀ name, sameName t.name name = true →
          Regrouped becomes t.shape (sectionOf r name fields)
  | [], _, ht => by cases ht
  | s :: ts, t, ht => by
    rcases List.mem_cons.1 ht with h | h
    · rw [h]
      exact sectionFields_regrouped faithful s
    · exact sectionFields_regrouped_all faithful ts t h

end

/-! ## Documents -/

/-- What object documents make of values. -/
lemma faithful_json : Faithful Json.reading Json.scalarOf fun value => value := by
  refine ⟨fun value => ?_, fun _ => rfl, fun _ => rfl⟩
  cases value with
  | none => rfl
  | some v => rfl

/-- What table documents make of values: no value comes back as an empty one. -/
lemma faithful_toml : Faithful Toml.reading Toml.scalarOf fun value => some (value.getD "") :=
  ⟨fun _ => rfl, fun _ => rfl, fun _ => nonEmpty?_congr rfl⟩

/-- The root of the second configuration is the section of the first: structurally equal, and the
same tree with siblings of different names interleaved in another way. -/
structure Restored (becomes : Option String → Option String) (conf : Configuration) (id : NodeId)
    (back : Configuration) : Prop where
  equal : structurallyEqual conf (some id) back (some root) = true
  regrouped : Regrouped becomes (conf.shape id) (back.shape root)

variable {conf back : Configuration} {id : NodeId} {d : NodeData}

/-- A root that is the section regrouped restores it, also when nothing counts as modified. -/
lemma restored_of_regrouped (blank : ∀ value, nonEmpty? (becomes value) = nonEmpty? value)
    (live : conf.live? id = some d) (sec : d.kind = .sectionKind) (forms : (conf.shape id).OneForms)
    (wf : back.WellFormed) (h : Regrouped becomes (conf.shape id) (back.shape root)) :
    Restored becomes conf id back ∧ Restored becomes conf id back.resetModified := by
  have restored : ∀ {back : Configuration}, back.WellFormed →
      Regrouped becomes (conf.shape id) (back.shape root) → Restored becomes conf id back := by
    intro back wf h
    obtain ⟨e, he, esec, -⟩ := wf.root
    exact ⟨structurallyEqual_of_regrouped blank live he sec esec forms h, h⟩
  refine ⟨restored wf h, restored wf.resetModified ?_⟩
  obtain ⟨e, he, -⟩ := wf.root
  rwa [shape_resetModified wf he]

/-- A readable table is read into a new configuration as its root. -/
lemma readFields_root {name : String} (good : GoodName name) (readable : ReadableFields fields) :
    ∃ back, (readFields r root fields).apply (.withRoot name) = (.ok (), back) ∧
      back.WellFormed ∧ back.shape root = sectionOf r name fields := by
  have wf := wellFormed_withRoot name
  obtain ⟨e, he, sec, -⟩ := wf.root
  obtain ⟨back, run, confined, shape⟩ := readFields_fills root readable _ e wf rfl he sec
  refine ⟨back, run, confined.wellFormed, ?_⟩
  rw [shape, shape_withRoot good]
  rfl

/-- The table of a section, with its fields in any order, is read as a root of any name that is the
section regrouped. -/
lemma readFields_sectionFields (faithful : Faithful r ofText becomes) (wf : conf.WellFormed)
    (live : conf.live? id = some d) (unmistakable : Unmistakable (conf.shape id))
    (h : Rearranged (.table (sectionFields ofText (conf.subtree id))) (.table fields))
    {name : String} (good : GoodName name) :
    ∃ back, (readFields r root fields).apply (.withRoot name) = (.ok (), back) ∧
      back.WellFormed ∧ Regrouped becomes ((conf.shape id).rename name) (back.shape root) := by
  obtain ⟨readable, regrouped⟩ :=
    sectionFields_regrouped faithful _ (named_subtree wf live) unmistakable fields h
  obtain ⟨back, run, wf', shape⟩ := readFields_root (r := r) good readable
  refine ⟨back, run, wf', ?_⟩
  rw [shape]
  exact (regrouped _ (sameName_refl _)).rename (sameName_refl name)

/-- What is written of a section as tables is read back, in whatever order the keys of the tables
come: the root is the section regrouped, with the entries of one name in their order. No entry below
the section may have the reserved name, and the names of siblings may differ in the case of ASCII
letters only. The root of a table document has the default name, and no value comes back as an
empty one. -/
theorem read_write_tables (h : Reachable conf) (sec : conf.isSection id = true)
    (unreserved : Unreserved (conf.shape id)) (forms : (conf.shape id).OneForms) :
    (∀ value, Rearranged (Json.sectionValue (conf.subtree id)) value →
      (∃ back, Json.configurationOf (.table [(conf.nameOf id, value)]) = .ok back ∧
        Restored (fun v => v) conf id back) ∧
      ∀ text, Json.Value.read text.toList = some (.table [(conf.nameOf id, value)]) →
        ∃ back, Format.json.read text = .ok back ∧ Restored (fun v => v) conf id back) ∧
    ∀ fields, Rearranged (.table (sectionFields Toml.scalarOf (conf.subtree id))) (.table fields) →
      (∃ back, (readFields Toml.reading root fields).apply .empty = (.ok (), back) ∧
        Restored (fun v => some (v.getD "")) (conf.replaceName id defaultRootName) id back) ∧
      ∀ text, Toml.readTable text.toList = some fields →
        ∃ back, Format.toml.read text = .ok back ∧
          Restored (fun v => some (v.getD "")) (conf.replaceName id defaultRootName) id back := by
  have wf := h.wellFormed
  obtain ⟨d, live, kind⟩ := isSection_iff.1 sec
  constructor
  · intro value rearranged
    obtain ⟨fields, rfl⟩ := rearranged.exists_fields
    obtain ⟨back, run, wf', regrouped⟩ :=
      readFields_sectionFields faithful_json wf live unreserved.unmistakable rearranged
        (wf.named id d live)
    rw [← name_shape wf live, Shape.rename_self] at regrouped
    obtain ⟨restored, restored'⟩ :=
      restored_of_regrouped faithful_json.blank live kind forms wf' regrouped
    have whole : Json.configurationOf (.table [(conf.nameOf id, .table fields)]) = .ok back := by
      rw [nameOf, live, Json.configurationOf, Json.readRoot]
      simp only [Option.map_some, Option.getD_some, run]
    refine ⟨⟨back, whole, restored⟩, fun text parsed => ⟨back.resetModified, ?_, restored'⟩⟩
    rw [Format.read, Format.readModified, Json.read, parsed]
    simp only [whole]
    rfl
  · intro fields rearranged
    have good : GoodName defaultRootName := ⟨by decide, by decide +kernel⟩
    obtain ⟨back, run, wf', regrouped⟩ :=
      readFields_sectionFields faithful_toml wf live unreserved.unmistakable rearranged good
    have shape : (conf.replaceName id defaultRootName).shape id =
        (conf.shape id).rename defaultRootName := by
      rw [shape_replaceName wf live good, Shape.rename, shape_eq wf live]
      rfl
    rw [← shape] at regrouped
    have forms' : ((conf.replaceName id defaultRootName).shape id).OneForms := by
      rw [shape]
      exact forms.rename _
    obtain ⟨restored, restored'⟩ := restored_of_regrouped faithful_toml.blank
      (live?_replaceName_self live) kind forms' wf' regrouped
    refine ⟨⟨back, run, restored⟩, fun text parsed => ⟨back.resetModified, ?_, restored'⟩⟩
    rw [Format.read, Format.readModified, Toml.read, parsed]
    simp only [Configuration.empty, run]
    rfl

/-- Attributes and sections share a name in three spellings, and the keys come back in another
order. -/
theorem read_write_tables_shared_name :
    let conf := (withRoot "base").operateAll
      [(.bare, .addAttribute 0 "Port" (some "1")), (.bare, .addAttribute 0 "zone" (some "eu")),
        (.bare, .addAttribute 0 "port" none), (.bare, .addSection 0 "port" none),
        (.bare, .addAttribute 4 "x" (some "")), (.bare, .addSection 0 "PORT" (some "v"))]
    let object := "\x7b\"base\":\x7b\"zone\":\"eu\",\"Port\":[\"1\",null,\x7b\"x\":\"\"\x7d," ++
      "\x7b\"-section-value\":\"v\"\x7d]\x7d\x7d"
    let table := "zone = \"eu\"\nPort = [\"1\", \"\", \x7b x = \"\" \x7d, " ++
      "\x7b -section-value = \"v\" \x7d]\n"
    Reachable conf ∧
      (∃ back, Format.json.read object = .ok back ∧ Restored (fun v => v) conf root back) ∧
      ∃ back, Format.toml.read table = .ok back ∧
        Restored (fun v => some (v.getD "")) (conf.replaceName root defaultRootName) root back := by
  intro conf object table
  have reach : Reachable conf :=
    (Reachable.withRoot "base").operateAll _ (by simp [Operation.others])
  have sec : conf.isSection root = true := by decide +kernel
  obtain ⟨json, toml⟩ := read_write_tables reach sec (by decide +kernel) (by decide +kernel)
  have written : Json.sectionValue (conf.subtree root) = .table
      [("Port", .array [.scalar (.text "1"), .scalar .null, .table [("x", .scalar (.text ""))],
        .table [(sectionValueKey, .scalar (.text "v"))]]), ("zone", .scalar (.text "eu"))] := by
    unfold conf
    rfl
  have written' : sectionFields Toml.scalarOf (conf.subtree root) =
      [("Port", .array [.scalar (.text "1"), .scalar (.text ""), .table [("x", .scalar (.text ""))],
        .table [(sectionValueKey, .scalar (.text "v"))]]), ("zone", .scalar (.text "eu"))] := by
    unfold conf
    rfl
  have name : conf.nameOf root = "base" := by decide +kernel
  rw [written, name] at json
  rw [written'] at toml
  refine ⟨reach, (json _ (.of_perm (.swap _ _ _))).2 object ?_,
    (toml _ (.of_perm (.swap _ _ _))).2 table ?_⟩
  · unfold object
    cbv
  · unfold table
    cbv

end ConfTree.Document
