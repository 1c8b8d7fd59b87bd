import ConfTree.Proofs.Text.Blank
import ConfTree.Proofs.Xml.Scanning
import ConfTree.Xml.Reader

/-!
# Faithful tokenizers

A tokenizer is `Faithful` if it finds in markup what the markup spells: the events of a text, the
name and the attributes of a tag, and what stands behind references. It may do with other texts what
it likes. The tokenizer that documents are read with is faithful (`faithful_tokenizer`).
-/

namespace ConfTree.Xml

/-! ## What is asked of a tokenizer -/

/-- An attribute behind the name of a tag, with its value as it is written. -/
def attributeSpelling (a : List Char × List Char) : List Char :=
  ' ' :: (a.1 ++ '=' :: '"' :: (a.2 ++ ['"']))

/-- An attribute that can be told from what stands around it in a tag. -/
structure Separable (a : List Char × List Char) : Prop where
  nonempty : a.1 ≠ []
  name : ∀ c ∈ a.1, isNameChar c = true
  quoted : '"' ∉ a.2
  alone : '<' ∉ a.2

/-- The tokenizer finds in markup what it spells, and no attribute of a tag twice. -/
structure Tokenizer.Faithful (tokens : Tokenizer) : Prop where
  events : ∀ {cs : List Char} {es : List Event}, Scans [] cs es → StartsMarkup cs →
    tokens.events cs = (es, false)
  name : ∀ {name rest : List Char}, (∀ c ∈ name, isNameChar c = true) →
    (∀ c ∈ rest.head?, isSpace c = true) → tokens.name (name ++ rest) = name
  attributes : ∀ {name : List Char} {attributes : List (List Char × List Char)},
    (∀ c ∈ name, isNameChar c = true) → (∀ a ∈ attributes, Separable a) →
    (attributes.map Prod.fst).Nodup →
    tokens.attributes (name ++ attributes.flatMap attributeSpelling) = (attributes, false)
  resolve : ∀ {cs v : List Char}, Refers cs v → tokens.resolve cs = some v
  distinct : ∀ content : List Char, ((tokens.attributes content).1.map Prod.fst).Nodup

/-! ## Names -/

/-- A tag starts with its name, and what follows starts with a space. -/
lemma tagName_append {name rest : List Char} (chars : ∀ c ∈ name, isNameChar c = true)
    (space : ∀ c ∈ rest.head?, isSpace c = true) :
    tagName (name ++ rest) = name ∧ (name ++ rest).dropWhile (fun c => !isSpace c) = rest := by
  have pass : ∀ c ∈ name, (!isSpace c) = true := fun c hc => by
    rw [isSpace_eq_false (chars c hc), Bool.not_false]
  rw [tagName, List.takeWhile_append_of_pos pass, List.dropWhile_append_of_pos pass]
  cases rest with
  | nil => exact ⟨List.append_nil _, rfl⟩
  | cons c rest =>
    have stop : isSpace c = true := space c rfl
    simp [stop]

/-- Behind a name, attributes start with a space. -/
lemma head?_spellings (attributes : List (List Char × List Char)) :
    ∀ c ∈ (attributes.flatMap attributeSpelling).head?, isSpace c = true := by
  cases attributes with
  | nil => rintro c ⟨⟩
  | cons a attributes =>
    rintro c ⟨⟩
    rfl

/-! ## Attributes -/

/-- The name of an attribute goes up to the equals sign. -/
lemma takeWhile_name {cs : List Char} (chars : ∀ c ∈ cs, isNameChar c = true) (rest : List Char) :
    (cs ++ '=' :: rest).takeWhile (fun c => !(isSpace c || c == '=')) = cs ∧
      ((cs ++ '=' :: rest).dropWhile fun c => !(isSpace c || c == '=')).dropWhile isSpace =
        '=' :: rest := by
  have inName : ∀ c ∈ cs, (!(isSpace c || c == '=')) = true := by
    intro c hc
    have equals : c ≠ '=' := ne_of_isNameChar (chars c hc) (by decide)
    simp [isSpace_eq_false (chars c hc), equals]
  rw [List.takeWhile_append_of_pos inName, List.dropWhile_append_of_pos inName]
  exact ⟨List.append_nil _, rfl⟩

/-- An attribute is taken from the front of what follows the name of a tag. -/
lemma takeAttribute_spelling {a : List Char × List Char} (h : Separable a) (rest : List Char) :
    takeAttribute (attributeSpelling a ++ rest) = some (some (a.1, a.2, rest)) := by
  obtain ⟨name, raw⟩ := a
  obtain ⟨c, cs, rfl⟩ := List.exists_cons_of_ne_nil h.nonempty
  obtain ⟨first, others⟩ := List.forall_mem_cons.1 h.name
  have spelling : attributeSpelling (c :: cs, raw) ++ rest =
      ' ' :: c :: (cs ++ '=' :: '"' :: (raw ++ '"' :: rest)) := by simp [attributeSpelling]
  -- Neither the name nor what is between the quotes goes on behind its end.
  have start : ∀ tail, (' ' :: c :: tail).dropWhile isSpace = c :: tail := by
    intro tail
    rw [List.dropWhile_cons_of_pos (by decide),
      List.dropWhile_cons_of_neg (by simp [isSpace_eq_false first])]
  have quote : ∀ tail, ('"' :: tail).dropWhile isSpace = '"' :: tail := fun _ => rfl
  rw [spelling, takeAttribute, start]
  simp only [takeWhile_name others, quote, Text.takeWhile_ne h.quoted, decide_true, Bool.true_or,
    if_true]

/-- Members differ from each other and from what was seen if the first one was not seen, and the
others do so when it is seen too. -/
lemma distinct_cons {α β : Type} {f : α → β} {a : α} {as : List α} {seen : List β} :
    ((a :: as).map f).Nodup ∧ (∀ b ∈ a :: as, f b ∉ seen) ↔
      f a ∉ seen ∧ (as.map f).Nodup ∧ ∀ b ∈ as, f b ∉ f a :: seen := by
  rw [List.map_cons, List.nodup_cons, List.forall_mem_cons]
  constructor
  · rintro ⟨⟨new, nodup⟩, fresh, apart⟩
    refine ⟨fresh, nodup, fun b hb hm => ?_⟩
    rcases List.mem_cons.1 hm with same | hm
    · exact new (List.mem_map.2 ⟨b, hb, same⟩)
    · exact apart b hb hm
  · rintro ⟨fresh, nodup, apart⟩
    refine ⟨⟨fun hm => ?_, nodup⟩, fresh, fun b hb hm => apart b hb (List.mem_cons_of_mem _ hm)⟩
    obtain ⟨b, hb, same⟩ := List.mem_map.1 hm
    exact apart b hb (same ▸ List.mem_cons_self)

/-- The attributes that are spelled behind a name are those of the tag. -/
lemma attributesWithin_spellings {attributes : List (List Char × List Char)}
    {seen : List (List Char)} {fuel : Nat} (separable : ∀ a ∈ attributes, Separable a)
    (apart : (attributes.map Prod.fst).Nodup ∧ ∀ a ∈ attributes, a.1 ∉ seen)
    (enough : (attributes.flatMap attributeSpelling).length < fuel) :
    attributesWithin seen fuel (attributes.flatMap attributeSpelling) = (attributes, false) := by
  induction attributes generalizing seen fuel with
  | nil =>
    cases fuel with
    | zero => cases enough
    | succ n => rfl
  | cons a attributes ih =>
    obtain ⟨first, separable⟩ := List.forall_mem_cons.1 separable
    obtain ⟨fresh, apart⟩ := distinct_cons.1 apart
    rw [List.flatMap_cons, List.length_append, attributeSpelling, List.length_cons] at enough
    cases fuel with
    | zero => cases enough
    | succ n =>
      rw [List.flatMap_cons, attributesWithin, takeAttribute_spelling first]
      simp [fresh, ih separable apart (show _ < n by omega)]

/-- The attributes of a tag are those that are spelled behind its name. -/
lemma spelledAttributes_eq {name : List Char} {attributes : List (List Char × List Char)}
    (chars : ∀ c ∈ name, isNameChar c = true) (separable : ∀ a ∈ attributes, Separable a)
    (nodup : (attributes.map Prod.fst).Nodup) :
    spelledAttributes (name ++ attributes.flatMap attributeSpelling) = (attributes, false) := by
  have enough : (attributes.flatMap attributeSpelling).length <
      (name ++ attributes.flatMap attributeSpelling).length + 1 := by
    rw [List.length_append]
    omega
  rw [spelledAttributes, (tagName_append chars (head?_spellings attributes)).2]
  exact attributesWithin_spellings separable ⟨nodup, by simp⟩ enough

/-- The attributes that are taken from a tag have different names, which are new. -/
lemma nodup_attributesWithin (seen : List (List Char)) (fuel : Nat) (cs : List Char) :
    ((attributesWithin seen fuel cs).1.map Prod.fst).Nodup ∧
      ∀ a ∈ (attributesWithin seen fuel cs).1, a.1 ∉ seen := by
  fun_induction attributesWithin seen fuel cs with
  | case1 | case2 | case3 | case4 => exact ⟨List.nodup_nil, nofun⟩
  | case5 seen fuel cs name value rest taken new attributes failed eq ih =>
    rw [eq] at ih
    exact distinct_cons.2 ⟨by simpa using new, ih⟩

/-- The tokenizer that documents are read with is faithful. -/
lemma faithful_tokenizer : tokenizer.Faithful where
  events scans starts := scans.events_eq starts
  name chars space := (tagName_append chars space).1
  attributes chars separable nodup := spelledAttributes_eq chars separable nodup
  resolve refers := refers.resolve_eq
  distinct _ := (nodup_attributesWithin _ _ _).1

end ConfTree.Xml
