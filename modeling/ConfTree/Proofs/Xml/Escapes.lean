import ConfTree.Xml.Entity
import ConfTree.Xml.Writer
import Mathlib.Data.List.Infix
import Mathlib.Tactic.Lemma

/-!
# Names and values as markup holds them

What is written of a value can be told from the marks around it and is read back: what stands in an
attribute stands for its value (`refers_attributeChars`), and character data is a row of sections
none of which has an end mark in it (`cdataChars_eq`, `flatten_cdataTexts`). No character of a name
is a mark or a space (`ne_of_isNameChar`).
-/

namespace ConfTree.Xml

/-! ## Names -/

/-- A letter or an underscore, and then letters, numbers, underscores, hyphens and dots. -/
def IsXmlName (name : String) : Prop :=
  ∃ c cs, name.toList = c :: cs ∧ (Text.letters.contains c = true ∨ c = '_') ∧
    ∀ d ∈ cs, Text.letters.contains d = true ∨ Text.numbers.contains d = true ∨
      d = '_' ∨ d = '-' ∨ d = '.'

/-- The writer takes the names of the grammar. -/
lemma isName_iff {name : String} : isName name = true ↔ IsXmlName name := by
  unfold isName IsXmlName
  cases name.toList with
  | nil => simp
  | cons c cs => simp [isNameStart, isNameChar, or_assoc]

/-- A name consists of name characters, and there is one. -/
lemma IsXmlName.chars {name : String} (h : IsXmlName name) :
    name.toList ≠ [] ∧ ∀ c ∈ name.toList, isNameChar c = true := by
  obtain ⟨c, cs, hn, first, others⟩ := h
  rw [hn]
  refine ⟨List.cons_ne_nil _ _, fun d hd => ?_⟩
  rcases List.mem_cons.1 hd with rfl | hd
  · rcases first with h | rfl
    · simp [isNameChar, h]
    · simp [isNameChar]
  · rcases others d hd with h | h | rfl | rfl | rfl <;> simp [isNameChar, *]

/-- The characters that stand between names and values, or start other markup than a tag. -/
def marks : List Char := ['<', '>', '/', '=', '\'', '"', '!', '?', ' ', '\t', '\r', '\n']

/-- No mark is a name character. -/
lemma ne_of_isNameChar {c d : Char} (h : isNameChar c = true) (hd : d ∈ marks) : c ≠ d := by
  have none_fits : marks.all (fun x => !isNameChar x) = true := by decide +kernel
  rintro rfl
  have unfit := List.all_eq_true.1 none_fits c hd
  rw [h] at unfit
  cases unfit

/-! ## Attributes -/

/-- The text with its references stands for the other one. -/
inductive Refers : List Char → List Char → Prop where
  | nil : Refers [] []
  | plain {c cs v} :
    c ≠ '&' →
    Refers cs v →
    Refers (c :: cs) (c :: v)
  | reference {body c cs v} :
    '&' ∉ body →
    ';' ∉ body →
    entity? body = some c →
    Refers cs v →
    Refers ('&' :: (body ++ ';' :: cs)) (c :: v)

/-- A text without references stands for itself. -/
lemma Refers.of_plain {cs : List Char} (h : '&' ∉ cs) : Refers cs cs := by
  induction cs with
  | nil => exact .nil
  | cons c cs ih =>
    rw [List.mem_cons, not_or] at h
    exact .plain (Ne.symm h.1) (ih h.2)

/-- One character that is written in an attribute stands for itself. -/
lemma refers_attributeChar (c : Char) {cs v : List Char} (rest : Refers cs v) :
    Refers (attributeChar c ++ cs) (c :: v) := by
  have reference (body : List Char) (amp : '&' ∉ body) (semicolon : ';' ∉ body)
      (stands : entity? body = some c) : Refers ('&' :: (body ++ ';' :: cs)) (c :: v) :=
    .reference amp semicolon stands rest
  unfold attributeChar
  split_ifs with lt gt amp apos quot lineFeed return_ tab
  · subst lt
    exact reference "lt".toList (by decide) (by decide) rfl
  · subst gt
    exact reference "gt".toList (by decide) (by decide) rfl
  · subst amp
    exact reference "amp".toList (by decide) (by decide) rfl
  · subst apos
    exact reference "apos".toList (by decide) (by decide) rfl
  · subst quot
    exact reference "quot".toList (by decide) (by decide) rfl
  · subst lineFeed
    exact reference "#10".toList (by decide) (by decide) rfl
  · subst return_
    exact reference "#13".toList (by decide) (by decide) rfl
  · subst tab
    exact reference "#9".toList (by decide) (by decide) rfl
  · exact .plain amp rest

/-- What is written in an attribute stands for its value. -/
lemma refers_attributeChars (v : List Char) : Refers (attributeChars v) v := by
  rw [attributeChars]
  induction v with
  | nil => exact .nil
  | cons c v ih =>
    rw [List.flatMap_cons]
    exact refers_attributeChar c ih

/-- The body of a reference is taken up to its end, whatever was taken of it before. -/
lemma resolveFrom_body {body : List Char} (amp : '&' ∉ body) (semicolon : ';' ∉ body)
    (front cs : List Char) :
    resolveFrom (some front) (body ++ ';' :: cs) =
      match entity? (front.reverse ++ body) with
      | none => none
      | some e => (resolveFrom none cs).map (e :: ·) := by
  induction body generalizing front with
  | nil =>
    rw [List.append_nil]
    rfl
  | cons c body ih =>
    rw [List.mem_cons, not_or] at amp semicolon
    rw [List.cons_append, resolveFrom, if_neg (Ne.symm amp.1), if_neg (Ne.symm semicolon.1),
      ih amp.2 semicolon.2, List.reverse_cons, List.append_assoc, List.singleton_append]

/-- A text is resolved to what it stands for. -/
lemma Refers.resolve_eq {cs v : List Char} (h : Refers cs v) : resolve cs = some v := by
  rw [resolve]
  induction h with
  | nil => rfl
  | plain other _ ih => rw [resolveFrom, if_neg other, ih, Option.map_some]
  | reference amp semicolon stands _ ih =>
    rw [resolveFrom, if_pos rfl, resolveFrom_body amp semicolon, List.reverse_nil, List.nil_append,
      stands]
    simp only [ih, Option.map_some]

/-- The characters that end an attribute, start a tag or are taken for spaces. -/
def unquotable : List Char := ['<', '"', '\t', '\n', '\r']

/-- The value of an attribute stays in its quotes, as it is. -/
lemma notMem_attributeChars {d : Char} (hd : d ∈ unquotable) (cs : List Char) :
    d ∉ attributeChars cs := by
  -- No reference has such a character.
  have reference {name : List Char} (h : unquotable.all (fun d => !name.contains d) = true) :
      d ∉ name := by simpa using List.all_eq_true.1 h d hd
  have single : ∀ c, d ∉ attributeChar c := by
    intro c
    unfold attributeChar
    split_ifs with lt gt amp apos quot lineFeed return_ tab
    any_goals
      refine reference ?_
      decide
    intro hc
    obtain rfl := List.mem_singleton.1 hc
    simp [unquotable, *] at hd
  intro h
  obtain ⟨c, -, hc⟩ := List.mem_flatMap.1 h
  exact single c hc

/-! ## Character data -/

/-- What ends a section of character data. -/
def endMark : List Char := [']', ']', '>']

/-- What names a section of character data. -/
def dataMark : List Char := ['[', 'C', 'D', 'A', 'T', 'A', '[']

/-- What starts a section of character data. -/
def startMark : List Char := '<' :: '!' :: dataMark

/-- A section of character data with the given text. -/
def cdataSection (text : List Char) : List Char := startMark ++ text ++ endMark

/-- Puts a character in front of the first text. -/
def prepend (c : Char) : List (List Char) → List (List Char)
  | [] => []
  | text :: texts => (c :: text) :: texts

/-- The texts that a text is cut into, within each of its end marks. -/
def cutEndMarks : List Char → List (List Char)
  | ']' :: ']' :: '>' :: cs => [']', ']'] :: prepend '>' (cutEndMarks cs)
  | c :: cs => prepend c (cutEndMarks cs)
  | [] => [[]]

/-- The texts of the sections that hold a text as character data. -/
def cdataTexts (cs : List Char) : List (List Char) := if cs.isEmpty then [] else cutEndMarks cs

/-- The first text goes up to an end mark, and none has one in it. -/
lemma cutEndMarks_spec (cs : List Char) :
    ∃ text texts, cutEndMarks cs = text :: texts ∧ text <+: cs ∧
      ∀ t ∈ text :: texts, ¬ endMark <:+: t := by
  -- The recursion of `splitEndMarks` is that of `cutEndMarks`.
  fun_induction cutEndMarks cs with
  | case1 cs ih =>
    obtain ⟨text, texts, h, -, unmarked⟩ := ih
    refine ⟨[']', ']'], ('>' :: text) :: texts, by rw [h, prepend], ⟨'>' :: cs, rfl⟩, ?_⟩
    intro t ht
    rcases List.mem_cons.1 ht with rfl | ht
    · decide
    rcases List.mem_cons.1 ht with rfl | ht
    · rw [List.infix_cons_iff, not_or]
      exact ⟨by simp [endMark], unmarked _ List.mem_cons_self⟩
    · exact unmarked _ (List.mem_cons_of_mem _ ht)
  | case2 c cs other ih =>
    obtain ⟨text, texts, h, front, unmarked⟩ := ih
    refine ⟨c :: text, texts, by rw [h, prepend], List.cons_prefix_cons.2 ⟨rfl, front⟩, ?_⟩
    intro t ht
    rcases List.mem_cons.1 ht with rfl | ht
    · rw [List.infix_cons_iff, not_or]
      refine ⟨?_, unmarked _ List.mem_cons_self⟩
      -- An end mark at the front was cut.
      rintro ⟨tail, ht⟩
      obtain ⟨rest, rfl⟩ := front
      obtain ⟨rfl, rfl⟩ := List.cons.inj ht
      exact other _ rfl rfl
    · exact unmarked _ (List.mem_cons_of_mem _ ht)
  | case3 => exact ⟨[], [], rfl, List.nil_prefix, by decide⟩

/-- A character in front of the first text is in front of all of them. -/
lemma flatten_prepend (c : Char) (texts : List (List Char)) (h : texts ≠ []) :
    (prepend c texts).flatten = c :: texts.flatten := by
  cases texts with
  | nil => exact absurd rfl h
  | cons text texts => rfl

/-- A text is cut into one part at least. -/
lemma cutEndMarks_ne_nil (cs : List Char) : cutEndMarks cs ≠ [] := by
  obtain ⟨text, texts, h, -⟩ := cutEndMarks_spec cs
  rw [h]
  exact List.cons_ne_nil _ _

/-- Nothing is lost at the cuts. -/
lemma flatten_cutEndMarks (cs : List Char) : (cutEndMarks cs).flatten = cs := by
  fun_induction cutEndMarks cs with
  | case1 cs ih =>
    rw [List.flatten_cons, flatten_prepend _ _ (cutEndMarks_ne_nil cs), ih]
    rfl
  | case2 c cs other ih => rw [flatten_prepend _ _ (cutEndMarks_ne_nil cs), ih]
  | case3 => rfl

/-- An end mark is split over two sections. -/
lemma splitEndMarks_mark (cs : List Char) :
    splitEndMarks (']' :: ']' :: '>' :: cs) =
      [']', ']'] ++ endMark ++ startMark ++ '>' :: splitEndMarks cs := rfl

/-- Where no end mark is, a character stays as it is. -/
lemma splitEndMarks_cons {c : Char} {cs : List Char}
    (other : ∀ tail, c = ']' → cs = ']' :: '>' :: tail → False) :
    splitEndMarks (c :: cs) = c :: splitEndMarks cs := by
  rw [splitEndMarks.eq_def]
  split
  · rename_i tail h
    obtain ⟨rfl, rfl⟩ := List.cons.inj h
    exact (other tail rfl rfl).elim
  · rename_i h
    obtain ⟨rfl, rfl⟩ := List.cons.inj h
    rfl
  · rename_i h
    cases h

/-- Splitting the end marks of a text makes a section of each text between the cuts. -/
lemma splitEndMarks_eq (cs : List Char) :
    startMark ++ splitEndMarks cs ++ endMark = (cutEndMarks cs).flatMap cdataSection := by
  -- Without the mark that opens the first section, the recursion goes through.
  suffices h : ∀ text texts, cutEndMarks cs = text :: texts →
      splitEndMarks cs ++ endMark = text ++ endMark ++ texts.flatMap cdataSection by
    obtain ⟨text, texts, eq, -⟩ := cutEndMarks_spec cs
    rw [List.append_assoc, h text texts eq, eq, List.flatMap_cons, cdataSection]
    simp only [List.append_assoc]
  fun_induction cutEndMarks cs with
  | case1 cs ih =>
    rintro _ _ ⟨⟩
    obtain ⟨text, texts, eq, -⟩ := cutEndMarks_spec cs
    have tail : '>' :: splitEndMarks cs ++ endMark =
        '>' :: text ++ endMark ++ texts.flatMap cdataSection := by
      rw [List.cons_append, ih text texts eq]
      rfl
    rw [splitEndMarks_mark, List.append_assoc, tail, eq, prepend, List.flatMap_cons, cdataSection]
    simp only [List.append_assoc]
  | case2 c cs other ih =>
    intro _ _ h
    obtain ⟨text, texts, eq, -⟩ := cutEndMarks_spec cs
    rw [eq, prepend] at h
    obtain ⟨rfl, rfl⟩ := List.cons.inj h
    rw [splitEndMarks_cons other, List.cons_append, ih text texts eq]
    rfl
  | case3 =>
    rintro _ _ ⟨⟩
    rfl

/-- Character data is a row of sections. -/
lemma cdataChars_eq (cs : List Char) : cdataChars cs = (cdataTexts cs).flatMap cdataSection := by
  unfold cdataChars cdataTexts
  split
  · rfl
  · exact splitEndMarks_eq cs

/-- The texts of character data make up the value. -/
lemma flatten_cdataTexts (cs : List Char) : (cdataTexts cs).flatten = cs := by
  unfold cdataTexts
  split
  · rename_i h
    rw [List.isEmpty_iff.1 h]
    rfl
  · exact flatten_cutEndMarks cs

/-- No section ends early. -/
lemma unmarked_cdataTexts {cs text : List Char} (h : text ∈ cdataTexts cs) :
    ¬ endMark <:+: text := by
  unfold cdataTexts at h
  split at h
  · cases h
  · obtain ⟨first, texts, eq, -, unmarked⟩ := cutEndMarks_spec cs
    exact unmarked text (eq ▸ h)

/-- There are sections unless the text is empty. -/
lemma cdataTexts_eq_nil {cs : List Char} : cdataTexts cs = [] ↔ cs = [] := by
  constructor
  · intro h
    rw [← flatten_cdataTexts cs, h]
    rfl
  · rintro rfl
    rfl

end ConfTree.Xml
