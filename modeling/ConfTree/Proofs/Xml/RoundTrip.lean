import ConfTree.Proofs.Operation.Documents
import ConfTree.Proofs.Xml.Reading

/-!
# Markup round trip

A reachable configuration can be written as markup unless a name in it is no markup name or two
attributes of one section have the same name, and what is written is read back to a configuration
that is structurally equal (`read_write_xml`). What is read has the normal form of the shape
that was written, whichever faithful tokenizer cuts it (`exists_write_read_normal`).
-/

namespace ConfTree.Configuration

variable {conf : Configuration}

/-! ## What cannot be written -/

/-- The name of a section or an attribute is no markup name, or two attributes of a section have
names of the same spelling. -/
def Unwritable (conf : Configuration) : Prop :=
  ∃ (id : NodeId) (d : NodeData), conf.live? id = some d ∧
    (¬ Xml.IsXmlName d.name ∨
      ∃ a ∈ d.entries .attributeKind, ∃ b ∈ d.entries .attributeKind,
        a ≠ b ∧ conf.nameOf a = conf.nameOf b)

/-- Sections can be written if each of them can. -/
lemma allWritable_iff {ts : List Subtree} : Subtree.AllWritable ts ↔ ∀ t ∈ ts, t.Writable := by
  induction ts with
  | nil => simp [Subtree.AllWritable]
  | cons t ts ih => rw [Subtree.AllWritable, ih, List.forall_mem_cons]

/-- A section can be written if its tag and its child sections can. -/
lemma writable_subtree_iff (wf : conf.WellFormed) {id : Nat} {d : NodeData}
    (h : conf.live? id = some d) :
    (conf.subtree id).Writable ↔ Xml.IsXmlName d.name ∧
      (∀ a ∈ d.entries .attributeKind, Xml.IsXmlName (conf.nameOf a)) ∧
        ((d.entries .attributeKind).map conf.nameOf).Nodup ∧
          ∀ c ∈ d.entries .sectionKind, (conf.subtree c).Writable := by
  rw [subtree_eq wf h, Subtree.Writable, allWritable_iff, List.forall_mem_map, List.forall_mem_map,
    List.map_map]
  rfl

/-- If the root can be written, then each section can. -/
lemma writable_section (wf : conf.WellFormed) (h : (conf.subtree root).Writable) {id : Nat}
    {d : NodeData} (live : conf.live? id = some d) (sec : d.kind = .sectionKind) :
    (conf.subtree id).Writable := by
  -- Parents come first.
  induction id using Nat.strong_induction_on generalizing d with
  | _ id ih =>
    by_cases top : id = root
    · rw [top]
      exact h
    · obtain ⟨p, pd, hp, lt, hpd, psec, -⟩ := wf.owned id d live top
      obtain ⟨-, -, -, children⟩ := (writable_subtree_iff wf hpd).1 (ih p lt hpd psec)
      exact children id (sec ▸ wf.mem_entries live hp hpd)

/-- Nothing is in the way of a tree that can be written. -/
lemma not_unwritable (wf : conf.WellFormed) (h : (conf.subtree root).Writable) :
    ¬ conf.Unwritable := by
  rintro ⟨id, d, live, bad⟩
  cases sec : d.kind with
  | sectionKind =>
    obtain ⟨named, -, nodup, -⟩ :=
      (writable_subtree_iff wf live).1 (writable_section wf h live sec)
    rcases bad with bad | ⟨a, ha, b, hb, ne, same⟩
    · exact bad named
    · exact ne (List.inj_on_of_nodup_map nodup ha hb same)
  | attributeKind =>
    rcases bad with bad | ⟨a, ha, -⟩
    · -- The name of an attribute stands in the tag of its parent.
      have notRoot : id ≠ root := by
        rintro rfl
        obtain ⟨r, hr, rsec, -⟩ := wf.root
        rw [live] at hr
        cases hr
        rw [sec] at rsec
        cases rsec
      obtain ⟨p, pd, hp, -, hpd, psec, -⟩ := wf.owned id d live notRoot
      obtain ⟨-, named, -⟩ := (writable_subtree_iff wf hpd).1 (writable_section wf h hpd psec)
      have := named id (sec ▸ wf.mem_entries live hp hpd)
      rw [nameOf, live] at this
      exact bad this
    · -- Only sections are parents.
      obtain ⟨e, he, -, hp⟩ := wf.listed id d _ a live ha
      obtain ⟨-, pd, hpd, psec, -⟩ := wf.parent he hp
      rw [live] at hpd
      cases hpd
      rw [sec] at psec
      cases psec

/-- A section can be written if nothing is in the way. -/
lemma writable_subtree (wf : conf.WellFormed) (free : ¬ conf.Unwritable) {id : Nat} {d : NodeData}
    (live : conf.live? id = some d) : (conf.subtree id).Writable := by
  -- Child sections come later, up to the end of the arena.
  induction hn : conf.nodes.size - id using Nat.strong_induction_on generalizing id d with
  | _ n ih =>
    have named : ∀ (x : Nat) (e : NodeData), conf.live? x = some e → Xml.IsXmlName e.name :=
      fun x e he => by_contra fun bad => free ⟨x, e, he, .inl bad⟩
    refine (writable_subtree_iff wf live).2 ⟨named id d live, ?_, ?_, ?_⟩
    · intro a ha
      obtain ⟨e, he, -⟩ := wf.listed id d _ a live ha
      rw [nameOf, he]
      exact named a e he
    · refine List.Nodup.map_on (fun a ha b hb same => ?_) (wf.nodup_entries live _)
      exact by_contra fun ne => free ⟨id, d, live, .inr ⟨a, ha, b, hb, ne, same⟩⟩
    · intro c hc
      obtain ⟨e, he, -⟩ := wf.listed id d _ c live hc
      have := wf.lt_of_mem_entries live hc
      have := lt_size_of_live he
      exact ih _ (by omega) he rfl

/-! ## Reading back -/

section

variable {tokens : Xml.Tokenizer} (faithful : tokens.Faithful)

include faithful

/-- A section that can be written is read back with the normal form of its shape. -/
lemma exists_write_read_normal (wf : conf.WellFormed) {id : Nat} {d : NodeData}
    (h : conf.live? id = some d) (sec : d.kind = .sectionKind)
    (writable : (conf.subtree id).Writable) :
    ∃ text conf', Format.xml.write conf (some id) = .ok text ∧
      Xml.readWith tokens text = .ok conf' ∧ conf'.WellFormed ∧
      conf'.shape root = (conf.shape id).normal := by
  have named := named_subtree wf h
  have good : GoodName (conf.subtree id).name := by
    rw [subtree_eq wf h]
    exact wf.named id d h
  have wfRoot := wellFormed_withRoot (conf.subtree id).name
  obtain ⟨r, hr, rsec, -⟩ := wfRoot.root
  obtain ⟨conf', run, confined, shape⟩ := Xml.fillElement_spec wfRoot rfl hr rsec named
    (shape_withRoot good)
  refine ⟨String.ofList (Xml.elementChars 0 (conf.subtree id) ++ ['\n']), conf', ?_,
    Xml.readWith_elementChars faithful writable run, confined.wellFormed, shape⟩
  rw [write_section _ h sec, Format.writeSection, Xml.write_eq_ok.2 ⟨writable, rfl⟩]

/-- With every faithful tokenizer, a root that can be written is read back to a structurally equal
configuration. -/
lemma exists_write_read_equal (wf : conf.WellFormed) (free : ¬ conf.Unwritable) :
    ∃ text conf', Format.xml.write conf (some root) = .ok text ∧
      Xml.readWith tokens text = .ok conf' ∧
      structurallyEqual conf'.resetModified (some root) conf (some root) = true := by
  obtain ⟨d, live, sec, -⟩ := wf.root
  obtain ⟨text, conf', written, read, wf', shape⟩ :=
    exists_write_read_normal faithful wf live sec (writable_subtree wf free live)
  have wf'' := wf'.resetModified
  obtain ⟨e, he, -⟩ := wf'.root
  obtain ⟨f, hf, fsec, -⟩ := wf''.root
  refine ⟨text, conf', written, read, structurallyEqual_of_normal hf live
    (NodeData.kind_eq_sectionKind.1 fsec) (NodeData.kind_eq_sectionKind.1 sec) ?_⟩
  rw [shape_resetModified wf' he, shape, Shape.normal_normal]

end

/-- A root that can be written is read back to a structurally equal configuration. -/
lemma exists_write_read_xml (wf : conf.WellFormed) (free : ¬ conf.Unwritable) :
    ∃ text conf', Format.xml.write conf (some root) = .ok text ∧
      Format.xml.read text = .ok conf' ∧
      structurallyEqual conf' (some root) conf (some root) = true := by
  obtain ⟨text, conf', written, read, equal⟩ :=
    exists_write_read_equal Xml.faithful_tokenizer wf free
  refine ⟨text, conf'.resetModified, written, ?_, equal⟩
  rw [Format.read, Format.readModified, Xml.read, read]
  rfl

/-- Writing a section fails if it cannot be written. -/
lemma write_eq_error {id : Nat} {d : NodeData} (h : conf.live? id = some d)
    (sec : d.kind = .sectionKind) (unwritable : ¬ (conf.subtree id).Writable) :
    ∃ fault, Format.xml.write conf (some id) = .error (.unwritable .xml fault) := by
  rw [write_section _ h sec, Format.writeSection]
  cases hw : Xml.write conf.rootPath (conf.subtree id) with
  | error fault => exact ⟨fault, rfl⟩
  | ok text => exact absurd (Xml.write_eq_ok.1 hw).1 unwritable

/-- Writing a reachable configuration as markup fails exactly if a name does not allow it. If it
succeeds, then what is written is read back to a structurally equal configuration. -/
theorem read_write_xml (h : Reachable conf) :
    ((∃ fault, Format.xml.write conf (some root) = .error (.unwritable .xml fault)) ↔
        conf.Unwritable) ∧
      (¬ conf.Unwritable → ∃ text conf', Format.xml.write conf (some root) = .ok text ∧
        Format.xml.read text = .ok conf' ∧
        structurallyEqual conf' (some root) conf (some root) = true) := by
  have wf := h.wellFormed
  obtain ⟨d, live, sec, -⟩ := wf.root
  refine ⟨⟨?_, ?_⟩, exists_write_read_xml wf⟩
  · rintro ⟨fault, failed⟩
    by_contra writable
    obtain ⟨text, -, written, -⟩ := exists_write_read_xml wf writable
    rw [failed] at written
    cases written
  · intro unwritable
    exact write_eq_error live sec fun writable => not_unwritable wf writable unwritable

/-- Values with marks, quotes, blanks and line ends are read back. With a space in a name, or with
two attributes of one name, nothing is written. -/
theorem read_write_xml_odd :
    let conf := (withRoot "base").operateAll
      [(.bare, .setValue 0 (some " a]]>\r\n")), (.bare, .addSection 0 "s" (some "\t ")),
        (.bare, .addAttribute 1 "x" (some "<'\"&>\t\n")), (.bare, .addAttribute 1 "y" none)]
    let spaced := conf.operateAll [(.bare, .addSection 0 "a b" none)]
    let doubled := conf.operateAll [(.bare, .addAttribute 1 "x" none)]
    (∃ text conf', Format.xml.write conf (some root) = .ok text ∧
      Format.xml.read text = .ok conf' ∧
      structurallyEqual conf' (some root) conf (some root) = true) ∧
    (∃ fault, Format.xml.write spaced (some root) = .error (.unwritable .xml fault)) ∧
    ∃ fault, Format.xml.write doubled (some root) = .error (.unwritable .xml fault) := by
  intro conf spaced doubled
  have reach : Reachable conf :=
    (Reachable.withRoot "base").operateAll _ (by simp [Operation.others])
  have reachSpaced : Reachable spaced := reach.operateAll _ (by simp [Operation.others])
  have reachDoubled : Reachable doubled := reach.operateAll _ (by simp [Operation.others])
  refine ⟨(read_write_xml reach).2 ?_, (read_write_xml reachSpaced).1.2 ?_,
    (read_write_xml reachDoubled).1.2 ?_⟩
  · intro unwritable
    obtain ⟨fault, failed⟩ := (read_write_xml reach).1.2 unwritable
    have written : (Format.xml.write conf (some root)).isOk = true := by decide +kernel
    rw [failed] at written
    cases written
  · obtain ⟨d, live, spelled⟩ : ∃ d, spaced.live? 4 = some d ∧ Xml.isName d.name = false :=
      ⟨_, rfl, by decide +kernel⟩
    refine ⟨4, d, live, .inl fun named => ?_⟩
    rw [← Xml.isName_iff, spelled] at named
    cases named
  · exact ⟨1, _, rfl, .inr ⟨2, by decide +kernel, 4, by decide +kernel, by decide,
      by decide +kernel⟩⟩

end ConfTree.Configuration
