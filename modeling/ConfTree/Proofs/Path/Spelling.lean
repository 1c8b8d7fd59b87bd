import ConfTree.Proofs.Path.Cutting
import ConfTree.Proofs.Text.Integer
import ConfTree.Tree.RootPath

/-!
# How segments are spelled

A segment is one of the dotted steps, a section by its name, by its name and a selector or by a
selector alone, or an attribute by its name or by its position. `Spells` says that a text reads back
as a segment, wherever it stands between slashes. Selectors count, or compare the value of an
attribute with a text in quotes, which may hold everything but the quote (`readSelector_matching`).
-/

namespace ConfTree.Path

open ConfTree.Text

variable {sep : Char → Bool} {cs ds : List Char}

/-- The characters of an index in its brackets. -/
lemma toList_indexText (n : Nat) :
    (indexText n).toList = '[' :: ((toString n).toList ++ [']']) := by
  simp [indexText]

/-- Digits can stand between brackets. -/
lemma inside_toString (n : Nat) : Inside (toString n).toList := by
  have digits : ∀ c ∈ (toString n).toList, c ≠ '[' ∧ c ≠ ']' ∧ c ≠ '\'' ∧ c ≠ '"' := by
    intro c hc
    have digit := isDigit_of_mem_toString hc
    refine ⟨?_, ?_, ?_, ?_⟩
    all_goals
      rintro rfl
      cases digit
  have inside := Inside.append digits .nil
  rwa [List.append_nil] at inside

/-- What stands between brackets is solid with them. -/
lemma Inside.solid (h : Inside cs) : Solid sep ('[' :: (cs ++ [']'])) :=
  (Enclosed.bracketed h .nil).solid

/-- A position in brackets is solid. -/
lemma Solid.indexText (n : Nat) : Solid sep (indexText n).toList := by
  rw [toList_indexText]
  exact (inside_toString n).solid

/-! ## Positions -/

/-- A printed position is read back if it fits a machine word. -/
lemma readIndex_toString {n : Nat} (h : n < UInt64.size) :
    readIndex (toString n).toList = some n := by
  have fits : (n : Int) ≤ IntegerRange.unsigned64.greatest := by
    change n < 18446744073709551616 at h
    change (n : Int) ≤ 18446744073709551615
    omega
  rw [readIndex, (tight_toString n).trimChars_eq, read_toString (by decide) fits]
  rfl

/-- A position in brackets selects a section by position. -/
lemma readSelector_toString {n : Nat} (h : n < UInt64.size) :
    readSelector (toString n).toList = some (.index n) := by
  have none : (toString n).toList.dropWhile (· != '=') = [] := by
    refine List.dropWhile_eq_nil_iff.2 fun c hc => ?_
    have digit := isDigit_of_mem_toString hc
    refine bne_iff_ne.2 ?_
    rintro rfl
    cases digit
  rw [readSelector, none, readIndex_toString h]
  rfl

/-- What ends with the character is left without it. -/
lemma dropEnd?_append (c : Char) (cs : List Char) : dropEnd? c (cs ++ [c]) = some cs := by
  simp [dropEnd?]

/-! ## Ends of texts -/

/-- A text is tight if its ends are those of tight texts. -/
lemma tight_append (h : Tight cs) (k : Tight ds) (hc : cs ≠ []) (hd : ds ≠ []) :
    Tight (cs ++ ds) := by
  refine ⟨?_, ?_⟩
  · rw [List.head?_append_of_ne_nil _ hc]
    exact h.1
  · rw [List.getLast?_append_of_ne_nil _ hd]
    exact k.2

/-- A character that is no blank is tight. -/
lemma tight_singleton {c : Char} (h : isBlank c = false) : Tight [c] := by
  constructor
  · rintro c ⟨⟩
    exact h
  · rintro c ⟨⟩
    exact h

/-- A text between two solid characters is tight. -/
lemma tight_between {c d : Char} (hc : isBlank c = false) (hd : isBlank d = false) :
    Tight (c :: (cs ++ [d])) := by
  constructor
  · rintro _ ⟨⟩
    exact hc
  · intro x hx
    rw [← List.cons_append, List.getLast?_concat] at hx
    cases hx
    exact hd

/-! ## Values in quotes -/

/-- The character is one of the two quotes. -/
def IsQuote (q : Char) : Prop := q = '\'' ∨ q = '"'

instance (q : Char) : Decidable (IsQuote q) :=
  inferInstanceAs (Decidable (q = '\'' ∨ q = '"'))

/-- The scanners test for quotes in this form. -/
lemma isQuote_iff {q : Char} : (q = '\'' || q = '"') = true ↔ IsQuote q := by simp [IsQuote]

/-- A quote is no blank. -/
lemma IsQuote.solid {q : Char} (hq : IsQuote q) : isBlank q = false := by
  rcases hq with rfl | rfl
  · decide
  · decide

/-- The name can stand in front of the value in a selector. -/
structure IsKey (key : String) : Prop where
  good : GoodName key
  unmarked : key.toList.head? ≠ some '$'
  chars : ∀ c ∈ key.toList, c ∉ ['[', ']', '\'', '"', '=']

/-- The characters of a value in quotes. -/
def quotedChars (q : Char) (value : String) : List Char := q :: (value.toList ++ [q])

/-- A text in quotes has no blanks around it. -/
lemma tight_quotedChars {q : Char} (hq : IsQuote q) (value : String) :
    Tight (quotedChars q value) := tight_between hq.solid hq.solid

/-- Quotes are taken off. -/
lemma unquote_quotedChars {q : Char} (hq : IsQuote q) (value : String) :
    unquote (quotedChars q value) = value.toList := by
  have quote := isQuote_iff.2 hq
  rw [quotedChars]
  cases value.toList with
  | nil => simp [unquote, quote]
  | cons c cs =>
    have last : (c :: (cs ++ [q])).getLast? = some q := by
      rw [← List.cons_append, List.getLast?_concat]
    simp only [List.cons_append, unquote, quote, last, decide_true, Bool.and_self, if_true]
    rw [← List.cons_append, List.dropLast_concat]

/-- A key can stand between brackets in front of a value that can. -/
lemma IsKey.inside {key : String} (hk : IsKey key) (h : Inside cs) :
    Inside (key.toList ++ '=' :: cs) := by
  refine .append (fun c hc => ?_) (.char (by decide) (by decide) (by decide) (by decide) h)
  have := hk.chars c hc
  simp only [List.mem_cons, not_or] at this
  exact ⟨this.1, this.2.1, this.2.2.1, this.2.2.2.1⟩

/-- A key and a value in quotes can stand between brackets, as long as the quote is not in the
value. -/
lemma inside_matching {key value : String} {q : Char} (hk : IsKey key) (hq : IsQuote q)
    (free : q ∉ value.toList) : Inside (key.toList ++ '=' :: quotedChars q value) :=
  hk.inside (.quoted hq free .nil)

/-- A key and a value in quotes select by the value as it is. -/
lemma readSelector_matching {key value : String} {q : Char} (hk : IsKey key) (hq : IsQuote q) :
    readSelector (key.toList ++ '=' :: quotedChars q value) = some (.matching key value) := by
  have free : '=' ∉ key.toList := fun hc => hk.chars _ hc (by simp)
  have whole : Tight key.toList := tight_of_trim_eq hk.good.2
  have mark : key.toList.dropWhile (· == '$') = key.toList := by
    have unmarked := hk.unmarked
    revert unmarked
    cases key.toList with
    | nil => exact fun _ => rfl
    | cons c cs => exact fun unmarked => List.dropWhile_cons_of_neg (by simpa using unmarked)
  have hne : key.toList ≠ [] := fun e => hk.good.1 (String.toList_eq_nil_iff.1 e)
  obtain ⟨left, cut⟩ := takeWhile_ne free (quotedChars q value)
  rw [readSelector, cut]
  simp only [left, whole.trimChars_eq, mark, List.isEmpty_iff, hne, if_false]
  rw [(tight_quotedChars hq value).trimChars_eq, unquote_quotedChars hq, String.ofList_toList,
    String.ofList_toList]

/-! ## Segments -/

/-- The text reads back as the segment, wherever it stands between slashes. -/
structure Spells (cs : List Char) (segment : Segment) : Prop where
  slashes : Solid isSlash cs
  bars : Solid isBar cs
  tight : Tight cs
  ne_nil : cs ≠ []
  reads : readSegment cs = .ok segment

/-- The characters of a plain name are neither brackets nor separators. -/
lemma plain_chars {name : String} (h : isPlainName name = true) :
    ∀ c ∈ name.toList, c ≠ '[' ∧ c ≠ ']' ∧ isSlash c = false ∧ isBar c = false := by
  intro c hc
  simp only [isPlainName, Bool.and_eq_true, Bool.not_eq_true', List.any_eq_false,
    Bool.or_eq_true, decide_eq_true_eq, not_or] at h
  obtain ⟨⟨⟨⟨slash, opening⟩, closing⟩, semicolon⟩, bar⟩ := h.2 c hc
  exact ⟨opening, closing, by simpa [isSlash] using slash, by simp [isBar, semicolon, bar]⟩

/-- A plain name is solid. -/
lemma Solid.of_plainName {name : String} (h : isPlainName name = true) :
    Solid isSlash name.toList ∧ Solid isBar name.toList := by
  constructor
  · refine .of_plain fun c hc => ?_
    obtain ⟨opening, -, slash, -⟩ := plain_chars h c hc
    exact ⟨opening, slash⟩
  · refine .of_plain fun c hc => ?_
    obtain ⟨opening, -, -, bar⟩ := plain_chars h c hc
    exact ⟨opening, bar⟩

/-- A plain name has no opening bracket. -/
lemma plain_bracket {name : String} (h : isPlainName name = true) : '[' ∉ name.toList :=
  fun hc => (plain_chars h _ hc).1 rfl

/-- A name is read back as it is. -/
lemma readSectionName_named {name : String} (h : GoodName name) :
    readSectionName name.toList = some name := by
  have hne : name.toList ≠ [] := fun e => h.1 (String.toList_eq_nil_iff.1 e)
  rw [readSectionName, (tight_of_trim_eq h.2).trimChars_eq]
  simp [hne]

/-- What is neither one of the two dotted steps nor marked as an attribute is read as a section. -/
lemma readSegment_section (current : cs ≠ ['.']) (parent : cs ≠ ['.', '.'])
    (mark : cs.head? ≠ some '$') : readSegment cs = readSection cs := by
  unfold readSegment
  split
  · exact absurd rfl current
  · exact absurd rfl parent
  · exact absurd rfl mark
  · rfl

/-- There are no blanks around an index in its brackets. -/
lemma tight_indexText (n : Nat) : Tight (indexText n).toList := by
  rw [toList_indexText]
  exact tight_between (by decide) (by decide)

section

variable {name : String} {n : Nat}

/-- A plain name has its own first character, which is no mark. -/
lemma plain_head (h : isPlainName name = true) :
    name.toList ≠ ['.'] ∧ name.toList ≠ ['.', '.'] ∧ name.toList.head? ≠ some '$' := by
  simp only [isPlainName, Bool.and_eq_true, bne_iff_ne, ne_eq] at h
  obtain ⟨⟨⟨⟨dot, dots⟩, mark⟩, -⟩, -⟩ := h
  refine ⟨fun e => dot ?_, fun e => dots ?_, mark⟩
  · exact String.toList_inj.1 e
  · exact String.toList_inj.1 e

/-- A plain name starts like no absolute and no required path. -/
lemma plain_head_path (plain : isPlainName name = true) :
    name.toList.head? ≠ some '/' ∧ name.toList.head? ≠ some '!' := by
  refine ⟨fun e => ?_, ?_⟩
  · have slash := (plain_chars plain _ (List.mem_of_head? e)).2.2.1
    cases slash
  · simp only [isPlainName, Bool.and_eq_true, bne_iff_ne] at plain
    exact plain.1.2

/-- A plain name in front of a bracket that is not closed at the end is malformed. -/
lemma readSegment_unclosed (plain : isPlainName name = true) (h : cs.getLast? ≠ some ']') :
    readSegment (name.toList ++ '[' :: cs) = .error .unclosedSelector := by
  have bracket : '[' ∈ name.toList ++ '[' :: cs := by simp
  obtain ⟨-, -, mark⟩ := plain_head plain
  have unmarked : (name.toList ++ '[' :: cs).head? ≠ some '$' := by
    revert mark
    cases name.toList <;> simp
  have unclosed : dropEnd? ']' cs = none := if_neg h
  rw [readSegment_section (fun e => ?_) (fun e => ?_) unmarked, readSection,
    (takeWhile_ne (plain_bracket plain) cs).2]
  · simp only [unclosed]
  all_goals
    rw [e] at bracket
    revert bracket
    decide

/-- A plain name alone is the first section of this name. -/
lemma Spells.named (plain : isPlainName name = true) (good : GoodName name) :
    Spells name.toList (.child (some name) none) := by
  obtain ⟨slashes, bars⟩ := Solid.of_plainName plain
  obtain ⟨dot, dots, mark⟩ := plain_head plain
  refine ⟨slashes, bars, tight_of_trim_eq good.2, ?_, ?_⟩
  · exact fun e => good.1 (String.toList_eq_nil_iff.1 e)
  · have opening : name.toList.dropWhile (· != '[') = [] :=
      List.dropWhile_eq_nil_iff.2 fun c hc => bne_iff_ne.2 (plain_chars plain c hc).1
    have closing : ']' ∉ name.toList := fun hc => (plain_chars plain _ hc).2.1 rfl
    rw [readSegment_section dot dots mark, readSection, opening]
    simp [closing, readSectionName_named good]

/-- The characters of a name that may be left out. -/
def nameChars (name : Option String) : List Char := (name.getD "").toList

/-- A selector behind a plain name, or alone, selects among the sections of the name, or among
all. -/
lemma Spells.selected {name : Option String} {selector : Selector}
    (fit : ∀ n ∈ name, isPlainName n = true ∧ GoodName n) (inside : Inside cs)
    (reads : readSelector cs = some selector) :
    Spells (nameChars name ++ '[' :: (cs ++ [']'])) (.child name (some selector)) := by
  have tight : Tight ('[' :: (cs ++ [']'])) := tight_between (by decide) (by decide)
  have last : (nameChars name ++ '[' :: (cs ++ [']'])).getLast? = some ']' := by
    rw [← List.cons_append, ← List.append_assoc, List.getLast?_concat]
  -- A text that ends with a bracket is none of the dotted steps.
  have undotted : nameChars name ++ '[' :: (cs ++ [']']) ≠ ['.'] ∧
      nameChars name ++ '[' :: (cs ++ [']']) ≠ ['.', '.'] := by
    constructor
    · intro e
      rw [e] at last
      cases last
    · intro e
      rw [e] at last
      cases last
  cases name with
  | none =>
    refine ⟨inside.solid, inside.solid, tight, List.cons_ne_nil _ _, ?_⟩
    rw [readSegment_section undotted.1 undotted.2 (by simp [nameChars]), readSection]
    simp only [nameChars, Option.getD_none, String.toList_empty, List.nil_append,
      List.dropWhile_cons, List.takeWhile_cons, bne_self_eq_false, Bool.false_eq_true, if_false,
      dropEnd?_append, reads]
    rfl
  | some name =>
    obtain ⟨plain, good⟩ := fit name rfl
    obtain ⟨slashes, bars⟩ := Solid.of_plainName plain
    obtain ⟨-, -, mark⟩ := plain_head plain
    have hne : name.toList ≠ [] := fun e => good.1 (String.toList_eq_nil_iff.1 e)
    refine ⟨slashes.append inside.solid, bars.append inside.solid,
      tight_append (tight_of_trim_eq good.2) tight hne (List.cons_ne_nil _ _),
      by simp [nameChars], ?_⟩
    rw [readSegment_section undotted.1 undotted.2, readSection]
    · simp only [nameChars, Option.getD_some, takeWhile_ne (plain_bracket plain), dropEnd?_append,
        reads, readSectionName_named good]
    · rw [nameChars, Option.getD_some, List.head?_append_of_ne_nil _ hne]
      exact mark

/-- A plain name with a number is the section with this number among those of the name. -/
lemma Spells.counted (plain : isPlainName name = true) (good : GoodName name)
    (h : n < UInt64.size) :
    Spells (name ++ indexText n).toList (.child (some name) (some (.index n))) := by
  have known : ∀ n ∈ some name, isPlainName n = true ∧ GoodName n := by
    rintro _ ⟨⟩
    exact ⟨plain, good⟩
  have spelled := Spells.selected known (inside_toString n) (readSelector_toString h)
  rw [String.toList_append, toList_indexText]
  exact spelled

/-- A position is the section at this position. -/
lemma Spells.position (h : n < UInt64.size) :
    Spells (indexText n).toList (.child none (some (.index n))) := by
  rw [toList_indexText]
  have unnamed : ∀ n ∈ (none : Option String), isPlainName n = true ∧ GoodName n := nofun
  exact .selected unnamed (inside_toString n) (readSelector_toString h)

/-- A mark is solid and tight before anything that is solid and does not end in a blank. -/
lemma mark_append (hs : Solid isSlash cs) (hb : Solid isBar cs)
    (last : ∀ c ∈ cs.getLast?, isBlank c = false) (hne : cs ≠ []) :
    Solid isSlash ('$' :: cs) ∧ Solid isBar ('$' :: cs) ∧ Tight ('$' :: cs) := by
  have mark : Tight ['$'] := tight_singleton (by decide)
  refine ⟨?_, ?_, mark.1, ?_⟩
  · exact (show Solid isSlash ['$'] from .of_plain (by simp [isSlash])).append hs
  · exact (show Solid isBar ['$'] from .of_plain (by simp [isBar])).append hb
  · rwa [← List.singleton_append, List.getLast?_append_of_ne_nil _ hne]

/-- A plain name behind a mark and blanks is the first attribute of this name. -/
lemma Spells.attributeBehind {blanks : List Char} (blank : ∀ c ∈ blanks, isBlank c = true)
    (plain : isPlainName name = true) (good : GoodName name) :
    Spells ('$' :: (blanks ++ name.toList)) (.attributeNamed name) := by
  obtain ⟨slashes, bars⟩ := Solid.of_plainName plain
  have tight := tight_of_trim_eq good.2
  have hne : name.toList ≠ [] := fun e => good.1 (String.toList_eq_nil_iff.1 e)
  have last : ∀ c ∈ (blanks ++ name.toList).getLast?, isBlank c = false := by
    rw [List.getLast?_append_of_ne_nil _ hne]
    exact tight.2
  obtain ⟨hs, hb, ht⟩ := mark_append ((Solid.of_blanks separating_isSlash blank).append slashes)
    ((Solid.of_blanks separating_isBar blank).append bars) last (by simp [hne])
  refine ⟨hs, hb, ht, by simp, ?_⟩
  have opening : '[' ∉ name.toList := fun hc => (plain_chars plain _ hc).1 rfl
  have closing : ']' ∉ name.toList := fun hc => (plain_chars plain _ hc).2.1 rfl
  have padded : Padded name.toList (blanks ++ name.toList) :=
    ⟨blanks, [], blank, by simp, by simp⟩
  change readAttribute (blanks ++ name.toList) = _
  unfold readAttribute
  rw [padded.trimChars_eq, tight.trimChars_eq]
  split
  · rename_i e
    exact absurd e hne
  · rename_i e
    rw [e] at opening
    exact absurd List.mem_cons_self opening
  · simp [opening, closing]

/-- A marked plain name is the first attribute of this name. -/
lemma Spells.attribute (plain : isPlainName name = true) (good : GoodName name) :
    Spells ("$" ++ name).toList (.attributeNamed name) := by
  have spells : Spells ('$' :: ([] ++ name.toList)) (.attributeNamed name) :=
    .attributeBehind (by simp) plain good
  simpa using spells

/-- A marked position is the attribute at this position. -/
lemma Spells.attributePosition (h : n < UInt64.size) :
    Spells ("$" ++ indexText n).toList (.attributeAt n) := by
  have bracket : (indexText n).toList ≠ [] := by simp [toList_indexText]
  obtain ⟨hs, hb, ht⟩ := mark_append (.indexText n) (.indexText n) (tight_indexText n).2 bracket
  have text : ("$" ++ indexText n).toList = '$' :: (indexText n).toList := by simp
  rw [text]
  refine ⟨hs, hb, ht, by simp, ?_⟩
  change readAttribute (indexText n).toList = _
  rw [readAttribute, (tight_indexText n).trimChars_eq, toList_indexText]
  simp only [dropEnd?_append, readIndex_toString h]

end

end ConfTree.Path
