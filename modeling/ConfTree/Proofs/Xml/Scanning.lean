import ConfTree.Proofs.Xml.Escapes
import ConfTree.Xml.Event
import Mathlib.Data.List.TakeWhile

/-!
# Events of what was written

`Scans` says which events a written text has, by the steps that a writer takes: tags, sections of
character data, and the texts between them. The scanner finds exactly these events
(`Scans.events_eq`). A tag is found as a whole because its quotes are closed, and a section of
character data because no end mark stands in it.
-/

namespace ConfTree.Xml

variable {quote quote₁ quote₂ : Option Char} {content cs rest : List Char}
  {opened : List (List Char)} {es : List Event}

/-! ## Tags -/

/-- A part of a tag is passed over, from the one state of quotes to the other. -/
def Passes (quote : Option Char) (part : List Char) (quote' : Option Char) : Prop :=
  ∀ rest, takeTag quote (part ++ rest) =
    (takeTag quote' rest).map fun (t, rest) => (part ++ t, rest)

/-- Nothing is passed over. -/
lemma Passes.nil : Passes quote [] quote := fun rest => by simp

/-- Parts are passed over one after the other. -/
lemma Passes.append {part part' : List Char} (h : Passes quote part quote₁)
    (h' : Passes quote₁ part' quote₂) : Passes quote (part ++ part') quote₂ := by
  intro rest
  rw [List.append_assoc, h, h', Option.map_map]
  simp [Function.comp_def]

/-- One character at a time is passed over. -/
lemma Passes.cons {c : Char} {part : List Char} (h : Passes quote [c] quote₁)
    (h' : Passes quote₁ part quote₂) : Passes quote (c :: part) quote₂ := h.append h'

/-- Outside of quotes what is no quote and does not end the tag is passed over. -/
lemma Passes.of_plain {part : List Char}
    (plain : ∀ c ∈ part, c ≠ '>' ∧ c ≠ '\'' ∧ c ≠ '"') : Passes none part none := by
  induction part with
  | nil => exact .nil
  | cons c part ih =>
    obtain ⟨notEnd, notApostrophe, notQuote⟩ := plain c List.mem_cons_self
    refine .cons (fun rest => ?_) (ih fun d hd => plain d (List.mem_cons_of_mem _ hd))
    rw [List.singleton_append, takeTag]
    simp [notEnd, notApostrophe, notQuote]

/-- A text in quotes that has no such quote in it is passed over. -/
lemma Passes.of_quoted {value : List Char} (h : '"' ∉ value) :
    Passes none ('"' :: (value ++ ['"'])) none := by
  have inside : Passes (some '"') value (some '"') := by
    induction value with
    | nil => exact .nil
    | cons c value ih =>
      rw [List.mem_cons, not_or] at h
      refine .cons (fun rest => ?_) (ih h.2)
      rw [List.singleton_append, takeTag]
      simp [Ne.symm h.1]
  exact .cons (fun rest => rfl) (inside.append fun rest => rfl)

/-- The content of a tag: it starts with a name, no other tag starts in it, and all quotes are
closed. -/
structure IsTag (content : List Char) : Prop where
  start : ∃ c tail, content = c :: tail ∧ isNameChar c = true
  alone : '<' ∉ content
  passes : Passes none content none

/-- A tag is taken up to its end. -/
lemma takeTag_passes (h : Passes none content none) (rest : List Char) :
    takeTag none (content ++ '>' :: rest) = some (content, rest) := by
  rw [h, takeTag]
  simp

/-- What starts with a name character is no other markup than a tag. -/
lemma takeMarkup_tag (h : IsTag content) (rest : List Char) :
    takeMarkup opened (content ++ '>' :: rest) =
      if content.getLast? = some '/' then some (.single content.dropLast, opened, rest)
      else some (.opening content, tagName content :: opened, rest) := by
  have take := takeTag_passes h.passes rest
  obtain ⟨c, tail, rfl, hc⟩ := h.start
  rw [List.cons_append] at take ⊢
  unfold takeMarkup
  split
  · contradiction
  · rename_i e
    exact absurd (List.cons.inj e).1 (ne_of_isNameChar hc (by decide))
  · rename_i e
    exact absurd (List.cons.inj e).1 (ne_of_isNameChar hc (by decide))
  · rename_i e
    exact absurd (List.cons.inj e).1 (ne_of_isNameChar hc (by decide))
  · rw [take]

/-- A slash before the end of a tag belongs to it. -/
lemma IsTag.slash (h : IsTag content) : IsTag (content ++ ['/']) := by
  obtain ⟨c, tail, rfl, hc⟩ := h.start
  refine ⟨⟨c, tail ++ ['/'], rfl, hc⟩, by simpa using h.alone,
    h.passes.append (.of_plain fun d hd => ?_)⟩
  obtain rfl := List.mem_singleton.1 hd
  decide

/-- A tag that ends with a slash stands for an empty element. -/
lemma takeMarkup_single (h : IsTag content) (rest : List Char) :
    takeMarkup opened (content ++ '/' :: '>' :: rest) = some (.single content, opened, rest) := by
  have last : (content ++ ['/']).getLast? = some '/' := by simp
  have tag := @takeMarkup_tag _ opened h.slash rest
  rw [if_pos last, List.dropLast_concat, List.append_assoc] at tag
  exact tag

/-- A tag that does not end with a slash opens an element. -/
lemma takeMarkup_opening (h : IsTag content) (last : content.getLast? ≠ some '/')
    (rest : List Char) :
    takeMarkup opened (content ++ '>' :: rest) =
      some (.opening content, tagName content :: opened, rest) := by
  rw [takeMarkup_tag h, if_neg last]

/-- Name characters are passed over. -/
lemma Passes.of_name {part : List Char} (h : ∀ c ∈ part, isNameChar c = true) :
    Passes none part none := by
  refine .of_plain fun c hc => ⟨?_, ?_, ?_⟩
  · exact ne_of_isNameChar (h c hc) (by decide)
  · exact ne_of_isNameChar (h c hc) (by decide)
  · exact ne_of_isNameChar (h c hc) (by decide)

/-- A name character is no space. -/
lemma isSpace_eq_false {c : Char} (h : isNameChar c = true) : isSpace c = false := by
  have space : ∀ d ∈ [' ', '\t', '\r', '\n'], (c == d) = false := fun d hd =>
    beq_false_of_ne (ne_of_isNameChar h (List.mem_of_mem_drop (i := 8) hd))
  simp only [isSpace, Bool.or_eq_false_iff]
  exact ⟨⟨⟨space _ (by decide), space _ (by decide)⟩, space _ (by decide)⟩, space _ (by decide)⟩

/-- A name has no spaces at its end. -/
lemma trimSpaceBack_name {name : List Char} (h : ∀ c ∈ name, isNameChar c = true) :
    trimSpaceBack name = name := by
  have stays : name.reverse.dropWhile isSpace = name.reverse := by
    refine List.dropWhile_eq_self_iff.2 fun hl => ?_
    rw [isSpace_eq_false (h _ (List.mem_reverse.1 (List.getElem_mem hl)))]
    exact Bool.false_ne_true
  rw [trimSpaceBack, stays, List.reverse_reverse]

/-- A closing tag closes the innermost element if it names it. -/
lemma takeMarkup_closing {name : List Char} (h : ∀ c ∈ name, isNameChar c = true)
    (rest : List Char) :
    takeMarkup (name :: opened) ('/' :: (name ++ '>' :: rest)) = some (.closing, opened, rest) := by
  have take := takeTag_passes (.of_name h) rest
  simp only [takeMarkup, take, trimSpaceBack_name h, ite_self, if_true]

/-! ## Character data -/

/-- A text up to an end mark is taken if no end mark stands in it. -/
lemma takeMarked_eq {before text : List Char} (h : ¬ endMark <:+: before.reverse ++ text)
    (rest : List Char) :
    takeMarked ']' 0 before (text ++ endMark ++ rest) =
      some (before.reverse ++ text ++ [']', ']'], rest) := by
  induction text generalizing before with
  | nil => simp [endMark, takeMarked]
  | cons c text ih =>
    rw [List.cons_append, List.cons_append, takeMarked, if_neg, ih]
    · simp
    · simpa using h
    · -- With two brackets in front of it, the character would end a mark.
      simp only [Bool.and_eq_true, decide_eq_true_eq, not_and]
      rintro ⟨rfl, -⟩ brackets
      obtain ⟨earlier, rfl⟩ : ∃ earlier, before = ']' :: ']' :: earlier := by
        rcases before with _ | ⟨a, _ | ⟨b, earlier⟩⟩
        · cases brackets
        · cases brackets
        · obtain ⟨first, brackets⟩ := List.cons.inj brackets
          rw [first, (List.cons.inj brackets).1]
          exact ⟨earlier, rfl⟩
      exact h ⟨earlier.reverse, text, by simp [endMark]⟩

/-- A section of character data is taken with its text. -/
lemma takeMarkup_cdata {text : List Char} (h : ¬ endMark <:+: text) (rest : List Char) :
    takeMarkup opened ('!' :: (dataMark ++ text ++ endMark ++ rest)) =
      some (.cdata text, opened, rest) := by
  -- No end mark reaches into what starts the section.
  have unmarked : ¬ endMark <:+: dataMark ++ text := by
    simpa [endMark, dataMark, List.infix_cons_iff] using h
  have take : takeMarked ']' 0 [] (dataMark ++ text ++ endMark ++ rest) =
      some (dataMark ++ text ++ [']', ']'], rest) := takeMarked_eq unmarked rest
  have lead : "[CDATA[".toList.isPrefixOf (dataMark ++ text ++ [']', ']']) = true := rfl
  have body : ((dataMark ++ text ++ [']', ']']).drop 7).dropLast.dropLast = text := by
    simp [dataMark]
  have bang : takeBang (dataMark ++ text ++ endMark ++ rest) = some (.cdata text, rest) := by
    rw [takeBang.eq_def]
    split
    · rename_i e
      cases e
    · rw [take]
      simp only [lead, body, if_true]
    · rename_i other e
      exact (other (List.cons.inj e).1.symm).elim
    · rename_i e
      cases e
  simp only [takeMarkup, bang, Option.map_some]

/-! ## Texts -/

/-- Markup or nothing follows. -/
def StartsMarkup (cs : List Char) : Prop := ∀ c ∈ cs.head?, c = '<'

/-- A text goes up to the next markup. -/
lemma takeWhile_text {raw : List Char} (plain : '<' ∉ raw) (starts : StartsMarkup cs) :
    (raw ++ cs).takeWhile (· != '<') = raw ∧ (raw ++ cs).dropWhile (· != '<') = cs := by
  have pass : ∀ c ∈ raw, (c != '<') = true := by
    intro c hc
    rw [bne_iff_ne]
    rintro rfl
    exact plain hc
  rw [List.takeWhile_append_of_pos pass, List.dropWhile_append_of_pos pass]
  cases cs with
  | nil => exact ⟨List.append_nil _, rfl⟩
  | cons c cs =>
    obtain rfl := starts c rfl
    exact ⟨List.append_nil _, rfl⟩

/-! ## Whole texts -/

/-- A text with the given events, where elements with the given names are open. -/
inductive Scans : List (List Char) → List Char → List Event → Prop where
  | nil {opened : List (List Char)} : Scans opened [] []
  | text {opened : List (List Char)} {raw cs : List Char} {es : List Event} :
    raw ≠ [] →
    '<' ∉ raw →
    StartsMarkup cs →
    Scans opened cs es →
    Scans opened (raw ++ cs) (.text raw :: es)
  | opening {opened : List (List Char)} {content cs : List Char} {es : List Event} :
    IsTag content →
    content.getLast? ≠ some '/' →
    Scans (tagName content :: opened) cs es →
    Scans opened ('<' :: (content ++ '>' :: cs)) (.opening content :: es)
  | single {opened : List (List Char)} {content cs : List Char} {es : List Event} :
    IsTag content →
    Scans opened cs es →
    Scans opened ('<' :: (content ++ '/' :: '>' :: cs)) (.single content :: es)
  | closing {opened : List (List Char)} {name cs : List Char} {es : List Event} :
    (∀ c ∈ name, isNameChar c = true) →
    Scans opened cs es →
    Scans (name :: opened) ('<' :: '/' :: (name ++ '>' :: cs)) (.closing :: es)
  | cdata {opened : List (List Char)} {text cs : List Char} {es : List Event} :
    ¬ endMark <:+: text →
    Scans opened cs es →
    Scans opened (cdataSection text ++ cs) (.cdata text :: es)

/-- Markup is one event, and what is left is scanned with one step less. -/
lemma eventsWithin_markup {opened' : List (List Char)} {e : Event}
    (take : takeMarkup opened cs = some (e, opened', rest)) (shorter : rest.length ≤ cs.length)
    (left : ∀ {n}, rest.length < n → eventsWithin opened' n rest = (es, false)) {fuel : Nat}
    (enough : ('<' :: cs).length < fuel) :
    eventsWithin opened fuel ('<' :: cs) = (e :: es, false) := by
  rw [List.length_cons] at enough
  cases fuel with
  | zero => cases enough
  | succ n =>
    rw [eventsWithin]
    simp only [take, left (show rest.length < n by omega)]

/-- A text is one event, up to the next markup. -/
lemma eventsWithin_text {raw : List Char} (nonempty : raw ≠ []) (plain : '<' ∉ raw)
    (starts : StartsMarkup cs)
    (left : ∀ {n}, cs.length < n → eventsWithin opened n cs = (es, false)) {fuel : Nat}
    (enough : (raw ++ cs).length < fuel) :
    eventsWithin opened fuel (raw ++ cs) = (.text raw :: es, false) := by
  obtain ⟨taken, rest⟩ := takeWhile_text plain starts
  obtain ⟨c, raw, rfl⟩ := List.exists_cons_of_ne_nil nonempty
  have notMarkup : c ≠ '<' := fun hc => plain (hc ▸ List.mem_cons_self)
  rw [List.length_append, List.length_cons] at enough
  cases fuel with
  | zero => cases enough
  | succ n =>
    rw [List.cons_append] at taken rest ⊢
    rw [eventsWithin.eq_4 _ _ _ (by simp) (by simpa using notMarkup), taken, rest,
      left (by omega)]

/-- The scanner finds the events of a text if it has a step for each character. -/
lemma Scans.eventsWithin_eq (h : Scans opened cs es) :
    ∀ {fuel}, cs.length < fuel → eventsWithin opened fuel cs = (es, false) := by
  induction h with
  | nil =>
    rintro (_ | n) enough
    · cases enough
    · rfl
  | text nonempty plain starts _ ih => exact eventsWithin_text nonempty plain starts ih
  | opening tag last _ ih =>
    refine eventsWithin_markup (takeMarkup_opening tag last _) ?_ ih
    simp only [List.length_append, List.length_cons]
    omega
  | single tag _ ih =>
    refine eventsWithin_markup (takeMarkup_single tag _) ?_ ih
    simp only [List.length_append, List.length_cons]
    omega
  | closing chars _ ih =>
    refine eventsWithin_markup (takeMarkup_closing chars _) ?_ ih
    simp only [List.length_append, List.length_cons]
    omega
  | cdata unmarked _ ih =>
    refine eventsWithin_markup (takeMarkup_cdata unmarked _) ?_ ih
    simp only [List.length_append, List.length_cons]
    omega

/-- A text that starts with markup has no byte order mark, and is scanned from its start. -/
lemma Scans.events_eq (h : Scans [] cs es) (starts : StartsMarkup cs) :
    events cs = (es, false) := by
  have noMark : cs.head? ≠ some (Char.ofNat 0xFEFF) := fun mark =>
    absurd (starts _ mark) (by decide)
  rw [events, if_neg noMark]
  exact h.eventsWithin_eq (Nat.lt_succ_self _)

end ConfTree.Xml
