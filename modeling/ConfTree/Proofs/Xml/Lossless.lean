import ConfTree.Proofs.Xml.Writing

/-!
# Values in markup

A value is found again in the sections of character data that are written for it, where each section
ends at the first end mark behind its start (`sectionTexts?_flatMap`), and in the attribute that is
written for it, in which nothing ends the quotes, starts a tag or is taken for a space
(`notMem_attributeChars`). Only references by name and by decimal code points are written
(`hexadecimal_not_infix`).
-/

namespace ConfTree.Xml

/-! ## Sections of character data -/

/-- The texts of sections of character data, each of which ends at the first end mark behind its
start, unless there is something else. The flag tells that a section is open. -/
def sectionTexts? : Bool → List Char → Option (List (List Char))
  | false, [] => some []
  | false, '<' :: '!' :: '[' :: 'C' :: 'D' :: 'A' :: 'T' :: 'A' :: '[' :: cs =>
    sectionTexts? true cs
  | false, _ :: _ => none
  | true, [] => none
  | true, ']' :: ']' :: '>' :: cs => (sectionTexts? false cs).map ([] :: ·)
  | true, c :: cs => (sectionTexts? true cs).map (prepend c)

/-- A start mark opens a section. -/
lemma sectionTexts?_start (cs : List Char) :
    sectionTexts? false (startMark ++ cs) = sectionTexts? true cs := rfl

/-- An end mark closes a section. -/
lemma sectionTexts?_end (cs : List Char) :
    sectionTexts? true (endMark ++ cs) = (sectionTexts? false cs).map ([] :: ·) := rfl

/-- Where no end mark is, a character belongs to the section. -/
lemma sectionTexts?_cons {c : Char} {cs : List Char} (other : ¬ endMark <+: c :: cs) :
    sectionTexts? true (c :: cs) = (sectionTexts? true cs).map (prepend c) := by
  rw [sectionTexts?]
  rintro tail rfl rfl
  exact other ⟨tail, rfl⟩

/-- An end mark does not start within a text that has none in it, also with an end mark behind. -/
lemma endMark_not_in_front {c : Char} {text : List Char} (h : ¬ endMark <:+: c :: text)
    (rest : List Char) : ¬ endMark <+: c :: (text ++ (endMark ++ rest)) := by
  rintro ⟨tail, ht⟩
  match text with
  | [] => cases ht
  | [_] => cases ht
  | a :: b :: text =>
    cases ht
    exact h ⟨[], text, rfl⟩

/-- An open section goes up to the end mark behind its text. -/
lemma sectionTexts?_text {text : List Char} (h : ¬ endMark <:+: text) (rest : List Char) :
    sectionTexts? true (text ++ (endMark ++ rest)) =
      (sectionTexts? false rest).map (text :: ·) := by
  induction text with
  | nil => exact sectionTexts?_end rest
  | cons c text ih =>
    have inside : ¬ endMark <:+: text := fun ht => h (List.infix_cons ht)
    rw [List.cons_append, sectionTexts?_cons (endMark_not_in_front h rest), ih inside,
      Option.map_map]
    rfl

/-- The texts of a row of sections are found again if no end mark stands in them. -/
lemma sectionTexts?_flatMap {texts : List (List Char)} (unmarked : ∀ t ∈ texts, ¬ endMark <:+: t) :
    sectionTexts? false (texts.flatMap cdataSection) = some texts := by
  induction texts with
  | nil => rfl
  | cons text texts ih =>
    obtain ⟨first, others⟩ := List.forall_mem_cons.1 unmarked
    rw [List.flatMap_cons, cdataSection, List.append_assoc, List.append_assoc,
      sectionTexts?_start, sectionTexts?_text first, ih others]
    rfl

/-! ## Attributes -/

/-- No reference by a hexadecimal code point is written. -/
lemma hexadecimal_not_infix (cs : List Char) : ¬ ['&', '#', 'x'] <:+: attributeChars cs := by
  have single : ∀ (c : Char) {rest : List Char}, ¬ ['&', '#', 'x'] <:+: rest →
      ¬ ['&', '#', 'x'] <:+: attributeChar c ++ rest := by
    intro c rest free
    unfold attributeChar
    split_ifs with lt gt amp
    any_goals simpa [List.infix_cons_iff] using free
    rw [List.singleton_append, List.infix_cons_iff, List.cons_prefix_cons]
    rintro (⟨same, -⟩ | inside)
    · exact amp same.symm
    · exact free inside
  induction cs with
  | nil => decide
  | cons c cs ih => exact single c ih

/-! ## Values -/

/-- A tokenizer that is faithful finds a value in the character data and in the attribute that are
written for it. -/
lemma Tokenizer.Faithful.value_found {tokens : Tokenizer} (faithful : tokens.Faithful)
    (v : List Char) :
    tokens.events (cdataChars v) = ((cdataTexts v).map .cdata, false) ∧
      tokens.resolve (attributeChars v) = some v := by
  refine ⟨?_, faithful.resolve (refers_attributeChars v)⟩
  have unmarked : ∀ t ∈ cdataTexts v, ¬ endMark <:+: t := fun _ => unmarked_cdataTexts
  have scans := scans_cdata unmarked (@Scans.nil [])
  rw [List.append_nil, List.append_nil] at scans
  rw [cdataChars_eq]
  refine faithful.events scans ?_
  cases cdataTexts v with
  | nil => rintro c ⟨⟩
  | cons text texts =>
    rintro c ⟨⟩
    rfl

/-- Nothing is lost of a value. As character data it is a row of sections that hold it, in this
order, and there is nothing beside them. As an attribute it is given back when the references are
replaced, which are by one of the five names or by a decimal code point, and nothing in it ends the
quotes, starts a tag or is taken for a space. -/
theorem values_lossless (v : List Char) :
    (∃ texts, sectionTexts? false (cdataChars v) = some texts ∧
      events (cdataChars v) = (texts.map .cdata, false) ∧ texts.flatten = v) ∧
    resolve (attributeChars v) = some v ∧ (¬ ['&', '#', 'x'] <:+: attributeChars v) ∧
      ∀ c ∈ unquotable, c ∉ attributeChars v := by
  obtain ⟨cut, resolved⟩ := faithful_tokenizer.value_found v
  refine ⟨⟨cdataTexts v, ?_, cut, flatten_cdataTexts v⟩, resolved, hexadecimal_not_infix v,
    fun _ hc => notMem_attributeChars hc v⟩
  rw [cdataChars_eq]
  exact sectionTexts?_flatMap fun _ => unmarked_cdataTexts

end ConfTree.Xml
