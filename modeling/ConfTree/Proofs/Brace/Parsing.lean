import ConfTree.Brace.Reader
import ConfTree.Proofs.Brace.Lexing
import ConfTree.Proofs.Tree.Copy

/-!
# Reading what was written

A written section is made of the tokens `sectionTokens` (`lexes_sectionLines`), and to read these
tokens inside an open section is to append a copy of the subtree to it (`readEntries_section`). Both
go by induction over the tree. An attribute is told from a section by the token behind its header,
which is why what follows the attributes has to go on with a name or a closing brace.
-/

namespace ConfTree.Brace

open ConfTree.Text

/-! ## The tokens of a tree -/

/-- The tokens of a name with its value. -/
def headerTokens (name : String) : Option String → List Token
  | none => [textToken name.toList]
  | some value => [textToken name.toList, .equals, textToken value.toList]

/-- The tokens of an attribute. -/
def attributeTokens (a : Attribute) : List Token := headerTokens a.name a.value

mutual

/-- The tokens of a section. -/
def sectionTokens : Subtree → List Token
  | .mk _ name value attributes children =>
    headerTokens name value ++ .opening ::
      (attributes.flatMap attributeTokens ++ (sectionsTokens children ++ [.closing]))

/-- The tokens of sections. -/
def sectionsTokens : List Subtree → List Token
  | [] => []
  | t :: ts => sectionTokens t ++ sectionsTokens ts

end

variable {cs : List Char} {tokens : List Token}

/-- A line goes on behind its blanks. -/
lemma lexes_indentation (depth : Nat) (h : Lexes cs tokens) :
    Lexes (indentation depth ++ cs) tokens := by
  rw [indentation]
  induction 2 * depth with
  | zero => exact h
  | succ n ih => exact .blank (by decide) ih

/-- A header is followed by what belongs to no word. -/
lemma lexes_header (name : String) (value : Option String) (ends : EndsWord cs)
    (h : Lexes cs tokens) :
    Lexes (headerChars name value ++ cs) (headerTokens name value ++ tokens) := by
  cases value with
  | none =>
    rw [headerChars, List.append_nil]
    exact .text _ ends h
  | some value =>
    rw [headerChars, List.append_assoc]
    refine .text _ ?_ (.equals (.text _ ends h))
    rintro c ⟨⟩
    decide

/-- A line end follows no word. -/
lemma endsWord_lineEnd : EndsWord ('\n' :: cs) := by
  rintro c ⟨⟩
  decide

/-- Attributes are written line by line. -/
lemma lexes_attributes (depth : Nat) (attributes : List Attribute) (h : Lexes cs tokens) :
    Lexes (attributes.flatMap (attributeLine depth) ++ cs)
      (attributes.flatMap attributeTokens ++ tokens) := by
  induction attributes with
  | nil => exact h
  | cons a attributes ih =>
    rw [List.flatMap_cons, List.flatMap_cons, List.append_assoc, List.append_assoc, attributeLine,
      List.append_assoc, List.append_assoc]
    exact lexes_indentation depth (lexes_header _ _ endsWord_lineEnd (.blank (by decide) ih))

mutual

/-- A written section is made of its tokens. -/
lemma lexes_sectionLines (depth : Nat) {cs : List Char} {tokens : List Token}
    (h : Lexes cs tokens) :
    ∀ t : Subtree, Lexes (sectionLines depth t ++ cs) (sectionTokens t ++ tokens)
  | .mk _ name value attributes children => by
    -- What stands behind the entries, and then the entries with it, from the end to the front.
    have rest : Lexes (indentation depth ++ ['}', '\n'] ++ cs) (.closing :: tokens) := by
      rw [List.append_assoc]
      exact lexes_indentation depth (.closing (.blank (by decide) h))
    have entries := lexes_attributes (depth + 1) attributes
      (lexes_sectionsLines (depth + 1) rest children)
    rw [sectionLines, sectionTokens]
    split
    · -- An empty section keeps its braces on its line.
      rename_i empty
      rw [Bool.and_eq_true, List.isEmpty_iff, List.isEmpty_iff] at empty
      obtain ⟨rfl, rfl⟩ := empty
      have line : Lexes (headerChars name value ++ ('{' :: '}' :: '\n' :: cs))
          (headerTokens name value ++ (.opening :: .closing :: tokens)) := by
        refine lexes_header _ _ ?_ (.opening (.closing (.blank (by decide) h)))
        rintro c ⟨⟩
        decide
      simpa [sectionsTokens, List.append_assoc] using lexes_indentation depth line
    · have line : Lexes (headerChars name value ++ ('\n' :: (indentation depth ++ ('{' :: '\n' ::
          (attributes.flatMap (attributeLine (depth + 1)) ++ (sectionsLines (depth + 1) children ++
            (indentation depth ++ ['}', '\n'] ++ cs)))))))
          (headerTokens name value ++ (.opening :: (attributes.flatMap attributeTokens ++
            (sectionsTokens children ++ (.closing :: tokens))))) :=
        lexes_header _ _ endsWord_lineEnd (.blank (by decide) (lexes_indentation depth
          (.opening (.blank (by decide) entries))))
      simpa [List.append_assoc] using lexes_indentation depth line

/-- The lexer finds the tokens of written sections. -/
lemma lexes_sectionsLines (depth : Nat) {cs : List Char} {tokens : List Token}
    (h : Lexes cs tokens) :
    ∀ ts : List Subtree, Lexes (sectionsLines depth ts ++ cs) (sectionsTokens ts ++ tokens)
  | [] => h
  | t :: ts => by
    rw [sectionsLines, sectionsTokens, List.append_assoc, List.append_assoc]
    exact lexes_sectionLines depth (lexes_sectionsLines depth h ts) t

end

/-- A written document lexes without a fault, to the tokens of its tree. -/
lemma lex_write (t : Subtree) :
    (lex (write t).toList).1.map Lexeme.token = sectionTokens t ∧
      (lex (write t).toList).2 = none := by
  have := (lexes_sectionLines 0 .nil t).lex_eq
  rw [List.append_nil, List.append_nil] at this
  rw [write, String.toList_ofList]
  exact this

/-! ## Reading tokens -/

/-- Behind an attribute, the tokens go on with a name or a closing brace. -/
def Continues (lexemes : List Lexeme) : Prop :=
  ∃ l rest, lexemes = l :: rest ∧ l.token ≠ .opening ∧ l.token ≠ .equals

/-- A token that was written as a text carries the text. -/
lemma text?_textToken (s : String) : (textToken s.toList).text? = some s := by
  unfold textToken
  split <;> simp [Token.text?]

/-- A text is no mark. -/
lemma ne_of_text? {token : Token} {s : String} (h : token.text? = some s) :
    token ≠ .opening ∧ token ≠ .closing ∧ token ≠ .equals := by
  refine ⟨?_, ?_, ?_⟩
  · rintro rfl
    cases h
  · rintro rfl
    cases h
  · rintro rfl
    cases h

variable {source : Source} {front rest : List Lexeme} {name : String} {value : Option String}

/-- The tokens of a header start with a text. -/
lemma front_header (h : front.map Lexeme.token = headerTokens name value) :
    ∃ l tail, front = l :: tail ∧ l.token.text? = some name := by
  cases front with
  | nil => cases value <;> cases h
  | cons l tail =>
    refine ⟨l, tail, rfl, ?_⟩
    have first : l.token = textToken name.toList := by cases value <;> exact (List.cons.inj h).1
    rw [first, text?_textToken]

/-- A header is read back if no equals sign follows. -/
lemma takeHeader_front (source : Source) (h : front.map Lexeme.token = headerTokens name value)
    (next : Lexeme) (after : List Lexeme) (hn : next.token ≠ .equals) :
    takeHeader source (front ++ next :: after) = .ok (⟨name, value⟩, next :: after) := by
  cases value with
  | none =>
    obtain ⟨l, tail, rfl, text⟩ := front_header h
    obtain rfl := List.map_eq_nil_iff.1 (List.cons.inj h).2
    simp only [takeHeader, takeText, List.cons_append, List.nil_append, text, hn, if_false]
  | some value =>
    obtain ⟨l, tail, rfl, text⟩ := front_header h
    obtain ⟨e, tail, rfl, equals, h⟩ := List.map_eq_cons_iff.1 (List.cons.inj h).2
    obtain ⟨v, tail, rfl, second, h⟩ := List.map_eq_cons_iff.1 h
    obtain rfl := List.map_eq_nil_iff.1 h
    have text' : v.token.text? = some value := by rw [second, text?_textToken]
    simp only [takeHeader, takeText, List.cons_append, List.nil_append, text, equals, text',
      if_true]

/-- A name that can be given to a node passes. -/
lemma checkName_named {rest : List Char} (good : GoodName name) :
    checkName source rest name = pure () := by
  rw [checkName, Configuration.validName?_of_goodName good]

variable {current : NodeId} {outer : List NodeId}

/-- A closing brace ends the innermost section. -/
lemma readEntries_closing {l : Lexeme} (h : l.token = .closing) :
    readEntries source (current :: outer) (l :: rest) = readEntries source outer rest := by
  rw [readEntries, if_pos h]

/-! The reader matches on the header with a proof that it has taken tokens. These are its steps for
each outcome of the match. -/

/-- Without a header the reader stops. -/
lemma readEntries_of_error {l : Lexeme} {e : ConfigError} (other : l.token ≠ .closing)
    (taken : takeHeader source (l :: rest) = .error e) :
    readEntries source (current :: outer) (l :: rest) = throw e := by
  rw [readEntries, if_neg other]
  split
  · rename_i h
    cases taken.symm.trans h
    rfl
  · rename_i h
    cases taken.symm.trans h
  · rename_i h
    cases taken.symm.trans h

/-- Behind a header at the end the section is not closed. -/
lemma readEntries_of_last {l : Lexeme} {header : Header} (other : l.token ≠ .closing)
    (taken : takeHeader source (l :: rest) = .ok (header, [])) :
    readEntries source (current :: outer) (l :: rest) =
      match source.fault with
      | some fault => throw (source.errorBefore [] fault)
      | none => (do
        checkName source [] header.name
        let _ ← Edit.addAttribute current header.name header.value
        throw (source.errorAtEnd .unclosed)) := by
  rw [readEntries, if_neg other]
  split
  · rename_i h
    cases taken.symm.trans h
  · rename_i h
    cases taken.symm.trans h
    cases source.fault <;> rfl
  · rename_i h
    cases taken.symm.trans h

/-- What a header stands for is told by the token behind it. -/
lemma readEntries_of_header {l next : Lexeme} {header : Header} {after : List Lexeme}
    (other : l.token ≠ .closing)
    (taken : takeHeader source (l :: rest) = .ok (header, next :: after)) :
    readEntries source (current :: outer) (l :: rest) = (do
      checkName source next.rest header.name
      if next.token = .opening then
        let id ← Edit.addSection current header.name header.value
        readEntries source (id :: current :: outer) after
      else
        let _ ← Edit.addAttribute current header.name header.value
        readEntries source (current :: outer) (next :: after)) := by
  rw [readEntries, if_neg other]
  split
  · rename_i h
    cases taken.symm.trans h
  · rename_i h
    cases taken.symm.trans h
  · rename_i h
    cases taken.symm.trans h
    rfl

/-- A header with a name that can be given to a node is what the token behind it tells. -/
lemma readEntries_header (h : front.map Lexeme.token = headerTokens name value)
    (good : GoodName name) {next : Lexeme} (after : List Lexeme)
    (hn : next.token ≠ .equals) :
    readEntries source (current :: outer) (front ++ next :: after) =
      if next.token = .opening then (do
        let id ← Edit.addSection current name value
        readEntries source (id :: current :: outer) after)
      else (do
        let _ ← Edit.addAttribute current name value
        readEntries source (current :: outer) (next :: after)) := by
  have header := takeHeader_front source h next after hn
  obtain ⟨l, tail, rfl, text⟩ := front_header h
  rw [List.cons_append] at header ⊢
  rw [readEntries_of_header (ne_of_text? text).2.1 header]
  simp only [checkName_named good, pure_bind]

/-- A header before an opening brace adds a section and goes on in it. -/
lemma readEntries_opening (h : front.map Lexeme.token = headerTokens name value)
    (good : GoodName name) {next : Lexeme} {after : List Lexeme}
    (hn : next.token = .opening) :
    readEntries source (current :: outer) (front ++ next :: after) = (do
      let id ← Edit.addSection current name value
      readEntries source (id :: current :: outer) after) := by
  rw [readEntries_header h good after (by simp [hn]), if_pos hn]

/-- A header before anything else than an opening brace adds an attribute. -/
lemma readEntries_attribute (h : front.map Lexeme.token = headerTokens name value)
    (good : GoodName name) (continues : Continues rest) :
    readEntries source (current :: outer) (front ++ rest) = (do
      let _ ← Edit.addAttribute current name value
      readEntries source (current :: outer) rest) := by
  obtain ⟨next, after, rfl, opening, equals⟩ := continues
  rw [readEntries_header h good after equals, if_neg opening]

/-- What starts with a header goes on. -/
lemma Continues.header (h : front.map Lexeme.token = headerTokens name value) :
    Continues (front ++ rest) := by
  obtain ⟨l, tail, rfl, text⟩ := front_header h
  exact ⟨l, tail ++ rest, rfl, (ne_of_text? text).1, (ne_of_text? text).2.2⟩

/-- To read the tokens of attributes is to append the attributes. -/
lemma readEntries_attributes {attributes : List Attribute}
    (h : front.map Lexeme.token = attributes.flatMap attributeTokens)
    (good : ∀ a ∈ attributes, GoodName a.name) (continues : Continues rest) :
    Continues (front ++ rest) ∧
      readEntries source (current :: outer) (front ++ rest) = (do
        Edit.copyAttributes current attributes
        readEntries source (current :: outer) rest) := by
  induction attributes generalizing front with
  | nil =>
    obtain rfl := List.map_eq_nil_iff.1 h
    exact ⟨continues, by rw [Edit.copyAttributes, pure_bind]; rfl⟩
  | cons a attributes ih =>
    obtain ⟨first, front, rfl, hf, h⟩ := List.map_eq_append_iff.1 h
    obtain ⟨continues', ih⟩ := ih h fun x hx => good x (List.mem_cons_of_mem _ hx)
    refine ⟨?_, ?_⟩
    · rw [List.append_assoc]
      exact .header hf
    · rw [List.append_assoc, readEntries_attribute hf (good a List.mem_cons_self) continues', ih,
        Edit.copyAttributes, bind_assoc]

/-- Sections are followed by what goes on. -/
lemma Continues.sections {ts : List Subtree} (h : front.map Lexeme.token = sectionsTokens ts)
    (continues : Continues rest) : Continues (front ++ rest) := by
  cases ts with
  | nil =>
    obtain rfl := List.map_eq_nil_iff.1 h
    exact continues
  | cons t ts =>
    obtain ⟨_, name, value, attributes, children⟩ := t
    rw [sectionsTokens, sectionTokens, List.append_assoc] at h
    obtain ⟨header, tail, rfl, hh, -⟩ := List.map_eq_append_iff.1 h
    rw [List.append_assoc]
    exact .header hh

mutual

/-- To read the tokens of a section is to append a copy of it. -/
lemma readEntries_section {source : Source} {current : NodeId} {outer : List NodeId}
    {front rest : List Lexeme} :
    ∀ {t : Subtree}, front.map Lexeme.token = sectionTokens t → t.Named →
      readEntries source (current :: outer) (front ++ rest) = (do
        let _ ← Edit.copySubtree current t
        readEntries source (current :: outer) rest)
  | .mk _ name value attributes children, h, ⟨good, goodAttributes, goodChildren⟩ => by
    obtain ⟨header, tail, rfl, hh, h⟩ := List.map_eq_append_iff.1 h
    obtain ⟨opening, tail, rfl, ho, h⟩ := List.map_eq_cons_iff.1 h
    obtain ⟨body, tail, rfl, hb, h⟩ := List.map_eq_append_iff.1 h
    obtain ⟨inner, tail, rfl, hi, h⟩ := List.map_eq_append_iff.1 h
    obtain ⟨closing, tail, rfl, hc, h⟩ := List.map_eq_cons_iff.1 h
    obtain rfl := List.map_eq_nil_iff.1 h
    have ends : Continues (inner ++ closing :: rest) :=
      .sections hi ⟨closing, rest, rfl, by simp [hc], by simp [hc]⟩
    have text : (header ++ opening :: (body ++ (inner ++ [closing]))) ++ rest =
        header ++ opening :: (body ++ (inner ++ closing :: rest)) := by simp
    -- Inside the new section, its entries and the brace that closes it are read.
    have inside : ∀ id : NodeId,
        readEntries source (id :: current :: outer) (body ++ (inner ++ closing :: rest)) = (do
          Edit.copyAttributes id attributes
          Edit.copySubtrees id children
          readEntries source (current :: outer) rest) := by
      intro id
      rw [(readEntries_attributes hb goodAttributes ends).2,
        readEntries_sections hi goodChildren, readEntries_closing hc]
    rw [text, readEntries_opening hh good ho]
    simp only [inside, Edit.copySubtree, bind_assoc, pure_bind]

/-- To read the tokens of sections is to copy them into the current section. -/
lemma readEntries_sections {source : Source} {current : NodeId} {outer : List NodeId}
    {front rest : List Lexeme} :
    ∀ {ts : List Subtree}, front.map Lexeme.token = sectionsTokens ts → Subtree.AllNamed ts →
      readEntries source (current :: outer) (front ++ rest) = (do
        Edit.copySubtrees current ts
        readEntries source (current :: outer) rest)
  | [], h, _ => by
    obtain rfl := List.map_eq_nil_iff.1 h
    rw [Edit.copySubtrees, pure_bind]
    rfl
  | t :: ts, h, ⟨first, named⟩ => by
    obtain ⟨head, tail, rfl, hh, h⟩ := List.map_eq_append_iff.1 h
    rw [List.append_assoc, readEntries_section hh first, Edit.copySubtrees, bind_assoc]
    simp only [readEntries_sections h named]

end

/-- A document is a header, an opening brace, and what an empty configuration is filled with. -/
lemma read_eq {s : String} {opening : Lexeme} {conf : Configuration}
    (tokens : lex s.toList = (front ++ opening :: rest, none))
    (header : front.map Lexeme.token = headerTokens name value) (ho : opening.token = .opening)
    (run : (do
      Edit.setValue Configuration.root value
      readEntries ⟨lineEnds s.toList, none⟩ [Configuration.root] rest : Edit (List Lexeme)).apply
        (.withRoot name) = (.ok [], conf)) :
    Brace.read s = .ok conf := by
  unfold Brace.read
  simp only [tokens, takeHeader_front _ header opening rest (by simp [ho]), ok_bind, ho, ne_eq,
    not_true, if_false, run, checkEnd]
  rfl

/-- To read a written document is to copy its tree into an empty configuration. -/
lemma read_write {t : Subtree} (named : t.Named) {conf : Configuration}
    (run : (do
      Edit.setValue Configuration.root t.value
      Edit.copyContent Configuration.root t : Edit Unit).apply (.withRoot t.name) =
        (.ok (), conf)) :
    Brace.read (write t) = .ok conf := by
  obtain ⟨tokens, fault⟩ := lex_write t
  obtain ⟨id, name, value, attributes, children⟩ := t
  obtain ⟨-, goodAttributes, goodChildren⟩ := named
  obtain ⟨header, tail, hl, hh, h⟩ := List.map_eq_append_iff.1 tokens
  obtain ⟨opening, tail, rfl, ho, h⟩ := List.map_eq_cons_iff.1 h
  obtain ⟨body, tail, rfl, hb, h⟩ := List.map_eq_append_iff.1 h
  obtain ⟨inner, tail, rfl, hi, h⟩ := List.map_eq_append_iff.1 h
  obtain ⟨closing, tail, rfl, hc, h⟩ := List.map_eq_cons_iff.1 h
  obtain rfl := List.map_eq_nil_iff.1 h
  have ends : Continues (inner ++ [closing]) :=
    .sections hi ⟨closing, [], rfl, by simp [hc], by simp [hc]⟩
  refine read_eq (Prod.ext hl fault) hh ho ?_
  -- What the reader does behind the opening brace is to copy the content of the root.
  have edit : (do
      Edit.setValue Configuration.root value
      readEntries ⟨lineEnds (write (.mk id name value attributes children)).toList, none⟩
        [Configuration.root] (body ++ (inner ++ [closing])) : Edit (List Lexeme)) = (do
      Edit.setValue Configuration.root value
      Edit.copyContent Configuration.root (.mk id name value attributes children)) >>=
        fun _ => pure [] := by
    rw [(readEntries_attributes hb goodAttributes ends).2, readEntries_sections hi goodChildren,
      readEntries_closing hc, readEntries]
    simp only [Edit.copyContent, Subtree.attributes, Subtree.children, bind_assoc]
  rw [edit]
  exact Edit.apply_bind_ok run

end ConfTree.Brace
