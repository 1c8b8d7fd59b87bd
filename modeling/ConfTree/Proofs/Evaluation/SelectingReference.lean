import ConfTree.Proofs.Evaluation.CanonicalReference
import ConfTree.Proofs.Path.Writing
import ConfTree.Text.Letters

/-!
# References that select by a value

A path can select a section by a value in quotes, which may look like anything. In a reference by
such a path it may not: what is a call there is told by the first double colon, in quotes or not. So
the reference stands for the value of the node that the path leads to if the quoted value has no
double colon, and is malformed otherwise, unless a bracket stands before the double colon
(`evaluate_selecting`). The names in the path are words of letters and numbers.
-/

namespace ConfTree

open ConfTree.Text ConfTree.Path

/-! ## Words -/

/-- The name is made of letters and numbers. -/
def IsWord (name : String) : Prop :=
  name ≠ "" ∧ (name.toList.all fun c => letters.contains c || numbers.contains c) = true

/-- The characters that stand for something in paths, in selectors and in references. -/
def pathMarks : List Char :=
  ['/', '.', '[', ']', ';', '|', '!', '$', '=', '\'', '"', '(', ')', ':']

/-- Ranges without letters and numbers, which all marks and blanks lie in. -/
def gaps : CharSet := .ofRanges [
  (0, 0x2F), (0x3A, 0x40), (0x5B, 0x60), (0x7B, 0xA0), (0x1680, 0x1680), (0x2000, 0x205F),
  (0x3000, 0x3000)]

/-- Blanks are gaps between the parts of a selector. -/
lemma gaps_of_isBlank {c : Char} (h : isBlank c = true) : gaps.contains c = true := by
  simp only [isBlank, Bool.or_eq_true, Bool.and_eq_true, decide_eq_true_eq, beq_iff_eq] at h
  have cases : c.toNat ≤ 0x2F ∨ (0x7B ≤ c.toNat ∧ c.toNat ≤ 0xA0) ∨ c.toNat = 0x1680 ∨
      (0x2000 ≤ c.toNat ∧ c.toNat ≤ 0x205F) ∨ c.toNat = 0x3000 := by omega
  rw [CharSet.contains_iff]
  rcases cases with ascii | latin | ogham | punctuation | ideographic
  · exact ⟨(0, 0x2F), by decide, Nat.zero_le _, ascii⟩
  · exact ⟨(0x7B, 0xA0), by decide, latin⟩
  · exact ⟨(0x1680, 0x1680), by decide, ogham.ge, ogham.le⟩
  · exact ⟨(0x2000, 0x205F), by decide, punctuation⟩
  · exact ⟨(0x3000, 0x3000), by decide, ideographic.ge, ideographic.le⟩

section

variable {name : String} (h : IsWord name)

include h

/-- No character of a word lies in a gap. -/
lemma IsWord.not_gaps {c : Char} (hc : c ∈ name.toList) : ¬ gaps.contains c = true := by
  have apart : (gaps.ranges.all fun g => (letters.ranges ++ numbers.ranges).all fun r =>
      r.2 < g.1 || g.2 < r.1) = true := by
    decide +kernel
  obtain ⟨r, hr, lower, upper⟩ :
      ∃ r ∈ letters.ranges ++ numbers.ranges, r.1 ≤ c.toNat ∧ c.toNat ≤ r.2 := by
    rcases Bool.or_eq_true_iff.1 (List.all_eq_true.1 h.2 c hc) with fits | fits
    · obtain ⟨r, hr, inside⟩ := CharSet.contains_iff.1 fits
      exact ⟨r, List.mem_append_left _ hr, inside⟩
    · obtain ⟨r, hr, inside⟩ := CharSet.contains_iff.1 fits
      exact ⟨r, List.mem_append_right _ hr, inside⟩
  intro gap
  obtain ⟨g, hg, above, below⟩ := CharSet.contains_iff.1 gap
  have outside := List.all_eq_true.1 (List.all_eq_true.1 apart g hg) r hr
  simp only [Bool.or_eq_true, decide_eq_true_eq] at outside
  omega

/-- No mark stands in a word. -/
lemma IsWord.notMem {d : Char} (hd : d ∈ pathMarks) : d ∉ name.toList := by
  have marks : pathMarks.all gaps.contains = true := by decide
  exact fun hc => h.not_gaps hc (List.all_eq_true.1 marks d hd)

/-- No character of a word is a blank. -/
lemma IsWord.solid {c : Char} (hc : c ∈ name.toList) : isBlank c = false := by
  rw [Bool.eq_false_iff]
  exact fun blank => h.not_gaps hc (gaps_of_isBlank blank)

/-- A word is a name of a node. -/
lemma IsWord.good : GoodName name :=
  ⟨h.1, trim_of_tight (tight_of_solid fun _ => h.solid)⟩

/-- A word is a name that stands in paths as it is. -/
lemma IsWord.plain : isPlainName name = true := by
  have dot : name ≠ "." := by
    rintro rfl
    exact h.notMem (d := '.') (by decide) (by decide)
  have dots : name ≠ ".." := by
    rintro rfl
    exact h.notMem (d := '.') (by decide) (by decide)
  have head : ∀ {d}, d ∈ pathMarks → name.toList.head? ≠ some d := fun hd e =>
    h.notMem hd (List.mem_of_head? e)
  have chars : ∀ c ∈ name.toList, ¬ ((((c = '/' ∨ c = '[') ∨ c = ']') ∨ c = ';') ∨ c = '|') := by
    rintro c hc ((((rfl | rfl) | rfl) | rfl) | rfl)
    all_goals exact h.notMem (by decide) hc
  simp only [isPlainName, Bool.and_eq_true, bne_iff_ne, Bool.not_eq_true', List.any_eq_false,
    Bool.or_eq_true, decide_eq_true_eq]
  exact ⟨⟨⟨⟨dot, dots⟩, head (by decide)⟩, head (by decide)⟩, chars⟩

/-- A word is the key of a selector. -/
lemma IsWord.isKey : IsKey name := by
  refine ⟨h.good, fun e => h.notMem (d := '$') (by decide) (List.mem_of_head? e), ?_⟩
  have marks : ['[', ']', '\'', '"', '='] ⊆ pathMarks := by decide
  exact fun c hc mark => h.notMem (marks mark) hc

end

/-! ## Double colons -/

/-- A double colon is not in what has no colon, nor across its ends. -/
lemma infix_of_notMem_left {front cs : List Char} (h : ':' ∉ front)
    (inside : [':', ':'] <:+: front ++ cs) : [':', ':'] <:+: cs := by
  induction front with
  | nil => exact inside
  | cons c front ih =>
    obtain ⟨other, rest⟩ := not_or.1 (mt List.mem_cons.2 h)
    refine ih rest ((List.infix_cons_iff.1 inside).resolve_left fun e => other ?_)
    exact (List.cons_prefix_cons.1 e).1

/-- A double colon does not reach into a text without colons. -/
lemma infix_of_notMem_right {cs back : List Char} (h : ':' ∉ back)
    (inside : [':', ':'] <:+: cs ++ back) : [':', ':'] <:+: cs := by
  have reversed := List.reverse_infix.2 inside
  rw [List.reverse_append] at reversed
  exact List.reverse_infix.1 (infix_of_notMem_left (fun hc => h (List.mem_reverse.1 hc)) reversed)

/-! ## Paths that select by a value in quotes -/

/-- The path to the attribute `wanted` of the first section of a name whose key has the given
value. -/
def selectingPath (name key value wanted : String) : String :=
  "/" ++ name ++ "[" ++ key ++ "='" ++ value ++ "']/$" ++ wanted

/-- The segment that the section is selected by. -/
def selecting (name key value : String) : Segment := .child (some name) (some (.matching key value))

/-- What stands in front of the value. -/
def selectingFront (name key : String) : List Char :=
  '/' :: (name.toList ++ '[' :: (key.toList ++ ['=', '\'']))

/-- What stands behind the value. -/
def selectingBack (wanted : String) : List Char := '\'' :: ']' :: '/' :: '$' :: wanted.toList

section

variable {name key value wanted : String}

/-- The characters of a path with a selector, around the value. -/
lemma toList_selectingPath : (selectingPath name key value wanted).toList =
    selectingFront name key ++ (value.toList ++ selectingBack wanted) := by
  simp [selectingPath, selectingFront, selectingBack]

/-- A text that is cut off behind a quote ends in the quote, or as what stands behind it does. -/
lemma exists_getLast {cs : List Char} (front : List Char)
    (solid : ∀ c ∈ cs.getLast?, isBlank c = false)
    (last : cs.getLast? ≠ some ']') :
    ∃ c, (front ++ '\'' :: cs).getLast? = some c ∧ isBlank c = false ∧ c ≠ ']' := by
  refine ⟨cs.getLast?.getD '\'', ?_, ?_⟩
  · rw [List.getLast?_append_of_ne_nil _ (by simp), List.getLast?_cons]
  · cases final : cs.getLast? with
    | none => exact ⟨by decide, by decide⟩
    | some c => exact ⟨solid c final, fun e => last (by rw [final, ← e]; rfl)⟩

variable (hn : IsWord name) (hk : IsWord key)

include hn hk

/-- The marks of references and calls are not in front of the value. -/
lemma notMem_selectingFront {c : Char} (hc : c ∈ ['(', ')', ':']) :
    c ∉ selectingFront name key := by
  have marks : ['(', ')', ':'] ⊆ pathMarks := by decide
  have fixed : ∀ c ∈ ['(', ')', ':'], c ≠ '/' ∧ c ≠ '[' ∧ c ≠ '=' ∧ c ≠ '\'' := by simp
  simp [selectingFront, hn.notMem (marks hc), hk.notMem (marks hc), fixed c hc]

/-- If it ends within the quotes, and not with a bracket, the path is a malformed alternative. -/
lemma read_unclosed {cs : List Char} (free : '\'' ∉ cs)
    (solid : ∀ c ∈ cs.getLast?, isBlank c = false)
    (last : cs.getLast? ≠ some ']') :
    Tight (selectingFront name key ++ cs) ∧
      Outline.read (selectingFront name key ++ cs) = ⟨false, [selectingFront name key ++ cs]⟩ ∧
      Alternative.read (selectingFront name key ++ cs) = .error .unclosedSelector := by
  have inside : Inside (key.toList ++ ['=']) := hk.isKey.inside .nil
  obtain ⟨inner, hinner⟩ : ∃ inner, inner = (key.toList ++ ['=']) ++ '\'' :: cs := ⟨_, rfl⟩
  have whole : selectingFront name key ++ cs = '/' :: (name.toList ++ '[' :: inner) := by
    simp [selectingFront, hinner]
  obtain ⟨c, ends, blank, bracket⟩ := exists_getLast (key.toList ++ ['=']) solid last
  rw [← hinner] at ends
  have tight : Tight (name.toList ++ '[' :: inner) := by
    have ne_nil : name.toList ≠ [] := fun e => hn.1 (String.toList_eq_nil_iff.1 e)
    refine tight_append (tight_of_trim_eq hn.good.2) ⟨by rintro _ ⟨⟩; decide, ?_⟩ ne_nil (by simp)
    rw [List.getLast?_cons, ends]
    rintro _ ⟨⟩
    exact blank
  have slash : Tight ['/'] := tight_singleton (by decide)
  have tightWhole : Tight ('/' :: (name.toList ++ '[' :: inner)) :=
    tight_append slash tight (by simp) (by simp)
  obtain ⟨slashes, bars⟩ := Solid.of_plainName hn.plain
  rw [whole]
  refine ⟨tightWhole, ?_, ?_⟩
  · have uncut : splitOutside isBar ('/' :: (name.toList ++ '[' :: inner)) =
        ['/' :: (name.toList ++ '[' :: inner)] := by
      rw [hinner]
      exact splitFrom_unclosed ((solid_slash rfl).append bars) (.inl rfl) inside free
    rw [Outline.read_optional, partsOf, uncut]
    · simp [tightWhole.trimChars_eq]
    · rw [tightWhole.trimChars_eq]
      simp
  · have parts : partsOf isSlash ('/' :: (name.toList ++ '[' :: inner)) =
        [name.toList ++ '[' :: inner] := by
      have cut : splitFrom isSlash 0 none [] (name.toList ++ '[' :: inner) =
          [name.toList ++ '[' :: inner] := by
        rw [hinner, splitFrom_unclosed slashes (.inl rfl) inside free]
      have empty : trimChars [] = [] := rfl
      rw [partsOf, splitOutside, splitFrom, cut]
      simp [isSlash, tight.trimChars_eq, empty]
    have malformed : readSegment (name.toList ++ '[' :: inner) = .error .unclosedSelector :=
      readSegment_unclosed hn.plain (by rw [ends]; simpa using bracket)
    rw [Alternative.read_eq, parts, readSegments, malformed]
    rfl

/-- A reference that is cut off within the quotes is malformed, unless it ends with a bracket. -/
lemma resolve_unclosed {process : Host} {conf : Configuration} {valueOf : ValueOf Eval}
    {context : Option NodeId} {cs : List Char} (free : '\'' ∉ cs)
    (first : ¬ [':', ':'] <:+: cs ++ [':']) (last : (trimBack cs).getLast? ≠ some ']')
    (call : List Char) :
    (Reference.read (selectingFront name key ++ (cs ++ ':' :: ':' :: call))).resolve process conf
        valueOf context =
      throw (.malformedPath (String.ofList (selectingFront name key ++ trimBack cs))
        .unclosedSelector) := by
  obtain ⟨after, blank, cut⟩ := trimBack_append cs
  have inQuotes : '\'' ∉ trimBack cs := fun hc => free (by
    rw [← cut]
    exact List.mem_append_left _ hc)
  obtain ⟨tight, outline, malformed⟩ := read_unclosed hn hk inQuotes (getLast?_trimBack cs) last
  have trimmed : trimChars (selectingFront name key ++ cs) =
      selectingFront name key ++ trimBack cs := by
    have padded : Padded (selectingFront name key ++ trimBack cs) (selectingFront name key ++ cs) :=
      ⟨[], after, by simp, blank, by rw [List.append_assoc, cut, List.nil_append]⟩
    rw [padded.trimChars_eq, tight.trimChars_eq]
  have whole : ¬ [':', ':'] <:+: (selectingFront name key ++ cs) ++ [':'] := by
    rw [List.append_assoc]
    exact fun inside => first
      (infix_of_notMem_left (notMem_selectingFront hn hk (by decide)) inside)
  have read : Reference.read (selectingFront name key ++ (cs ++ ':' :: ':' :: call)) =
      ⟨false, String.ofList (selectingFront name key ++ trimBack cs),
        .node (String.ofList (selectingFront name key ++ trimBack cs)),
        some (String.ofList call)⟩ := by
    rw [← List.append_assoc, Reference.read, splitAtCall_append whole]
    dsimp only
    rw [trimmed]
    rfl
  have fails : Path.navigate conf valueOf context
      (String.ofList (selectingFront name key ++ trimBack cs)) =
        throw (.malformedPath (String.ofList (selectingFront name key ++ trimBack cs))
          .unclosedSelector) := by
    have single : Outline.read (String.ofList (selectingFront name key ++ trimBack cs)).toList =
        ⟨false, [selectingFront name key ++ trimBack cs]⟩ := by
      rw [String.toList_ofList, outline]
    rw [navigate_single single, followAlternative, malformed]
  rw [read, Reference.resolve, Target.input, fails]
  rfl

variable (hx : IsWord wanted)

include hx

/-- The path spells its two segments. -/
lemma spells_selectingPath (free : '\'' ∉ value.toList) :
    ∃ parts, (selectingPath name key value wanted).toList = pathChars parts ∧
      List.Forall₂ Spells parts [selecting name key value, .attributeNamed wanted] := by
  have known : ∀ n ∈ some name, isPlainName n = true ∧ GoodName n := by
    rintro _ ⟨⟩
    exact ⟨hn.plain, hn.good⟩
  have selects := Spells.selected known (inside_matching hk.isKey (.inl rfl) free)
    (readSelector_matching hk.isKey (.inl rfl))
  refine ⟨_, ?_, .cons selects (.cons (.attribute hx.plain hx.good) .nil)⟩
  rw [toList_selectingPath]
  simp [selectingFront, selectingBack, pathChars, nameChars, quotedChars,
    List.intercalate_cons_cons]

/-- The path starts with a slash, and it has no blanks around it. -/
lemma tight_selectingPath (free : '\'' ∉ value.toList) :
    ∃ cs, (selectingPath name key value wanted).toList = '/' :: cs ∧ Tight ('/' :: cs) := by
  obtain ⟨parts, text, spelled⟩ := spells_selectingPath hn hk hx free
  exact ⟨_, text, tight_pathChars (forall_of_spells spelled fun _ _ s => ⟨s.tight, s.ne_nil⟩)⟩

/-- Where the path leads, from everywhere. -/
lemma navigate_selectingPath {conf : Configuration} (free : '\'' ∉ value.toList)
    (literal : (selecting name key value).Literal conf Configuration.root) :
    ∃ target, ∀ process start,
      Path.navigate conf (nodeValue Eval process conf) start (selectingPath name key value wanted) =
        pure target := by
  obtain ⟨parts, text, spelled⟩ := spells_selectingPath hn hk hx free
  obtain ⟨next, first⟩ := step_literal literal
  have literalLast : ∀ segment ∈ [Segment.attributeNamed wanted], ∀ id,
      segment.Literal conf id := by
    simp [Segment.Literal]
  obtain ⟨last, rest⟩ := follow_literal literalLast next
  refine ⟨last, fun process start => ?_⟩
  rw [← String.ofList_toList (s := selectingPath name key value wanted), text,
    navigate_pathChars start spelled, follow, first, pure_bind, rest]

omit hn hk

/-- The marks of references and calls are not behind the value. -/
lemma notMem_selectingBack {c : Char} (hc : c ∈ ['(', ')', ':']) : c ∉ selectingBack wanted := by
  have marks : ['(', ')', ':'] ⊆ pathMarks := by decide
  have fixed : ∀ c ∈ ['(', ')', ':'], c ≠ '\'' ∧ c ≠ ']' ∧ c ≠ '/' ∧ c ≠ '$' := by simp
  simp [selectingBack, hx.notMem (marks hc), fixed c hc]

include hn hk

/-- A value without parentheses leaves the path balanced. -/
lemma balanced_selectingPath (opening : '(' ∉ value.toList) (closing : ')' ∉ value.toList) :
    Balanced (selectingPath name key value wanted).toList := by
  have free : ∀ {c}, c ∈ ['(', ')', ':'] → c ∉ value.toList →
      c ∉ (selectingPath name key value wanted).toList := by
    intro c hc free
    rw [toList_selectingPath, List.mem_append, List.mem_append]
    rintro (inside | inside | inside)
    · exact notMem_selectingFront hn hk hc inside
    · exact free inside
    · exact notMem_selectingBack hx hc inside
  exact balanced_of_notMem (free (by decide) opening) (free (by decide) closing)

/-- A value without double colons leaves the path without them. -/
lemma noCall_selectingPath (noCall : ¬ [':', ':'] <:+: value.toList) :
    ¬ [':', ':'] <:+: (selectingPath name key value wanted).toList := by
  rw [toList_selectingPath]
  exact fun inside => noCall (infix_of_notMem_right (notMem_selectingBack hx (by decide))
    (infix_of_notMem_left (notMem_selectingFront hn hk (by decide)) inside))

end

namespace Configuration

variable {conf : Configuration}

/-- A path that selects by a value in quotes leads to a fixed target, if the selected attributes
hold no references. A reference by it stands for the value of the target, if the quoted value has no
double colon. Otherwise the path ends at the double colon, so it is malformed unless a bracket
stands before it. -/
theorem evaluate_selecting (process : Host) {name key value wanted : String}
    (hn : IsWord name) (hk : IsWord key) (hx : IsWord wanted)
    (quote : '\'' ∉ value.toList) (opening : '(' ∉ value.toList) (closing : ')' ∉ value.toList)
    (literal : (selecting name key value).Literal conf Configuration.root) :
    ∃ target,
      (∀ start,
        conf.navigate process start (selectingPath name key value wanted) = .ok target) ∧
      (¬ [':', ':'] <:+: value.toList →
        (∀ id ∈ target, ∀ raw ∈ conf.verbatim? id, hasReference raw.toList = false) →
        ∃ own, conf.valueOf? process target = .ok own ∧ ∀ node,
          conf.evaluate process node ("$(" ++ selectingPath name key value wanted ++ ")") =
            .ok (own.getD "")) ∧
      ∀ before after, value.toList = before ++ ':' :: ':' :: after →
        ¬ [':', ':'] <:+: before ++ [':'] → (trimBack before).getLast? ≠ some ']' → ∀ node,
          conf.evaluate process node ("$(" ++ selectingPath name key value wanted ++ ")") =
            .error (.malformedPath (String.ofList (selectingFront name key ++ trimBack before))
              .unclosedSelector) := by
  obtain ⟨target, leads⟩ := navigate_selectingPath hn hk hx quote literal
  obtain ⟨cs, slash, tight⟩ := tight_selectingPath hn hk hx quote
  have balanced := balanced_selectingPath hn hk hx opening closing
  refine ⟨target, fun start => ?_, fun noCall plain => ?_,
    fun before after cut first last node => ?_⟩
  · rw [navigate, leads]
    rfl
  · have noCall := noCall_selectingPath hn hk hx noCall
    rw [slash] at noCall balanced
    rw [← String.ofList_toList (s := selectingPath name key value wanted), slash] at leads ⊢
    refine ⟨target.bind conf.verbatim?, ?_, fun node =>
      evaluate_path process node tight noCall balanced (leads process) plain⟩
    cases target with
    | none => rfl
    | some id => exact value?_literal (plain id rfl) process
  · have inQuotes : '\'' ∉ before := fun hc => quote (by
      rw [cut]
      exact List.mem_append_left _ hc)
    have body : (selectingPath name key value wanted).toList =
        selectingFront name key ++ (before ++ ':' :: ':' :: (after ++ selectingBack wanted)) := by
      rw [toList_selectingPath, cut]
      simp
    rw [← String.ofList_toList (s := selectingPath name key value wanted)]
    refine evaluate_reference (s := ⟨[], 1⟩) process node balanced ?_ ?_
    · rw [slash, tight.trimChars_eq]
      exact fun escape => absurd (List.cons.inj escape).1 (by decide)
    · rw [body, resolve_unclosed hn hk inQuotes first last]
      rfl

/-- One value looks like the rest of the path, and one has a double colon. -/
theorem evaluate_selecting_sample :
    let conf := (withRoot "base").operateAll
      [(.bare, .addSection 0 "n" none), (.bare, .addAttribute 1 "a" (some "; |/=[]: \"")),
        (.bare, .addAttribute 1 "x" (some "7")), (.bare, .addSection 0 "n" none),
        (.bare, .addAttribute 4 "a" (some "p::q")), (.bare, .addAttribute 4 "x" (some "8"))]
    IsWord "n" ∧ IsWord "a" ∧ IsWord "x" ∧
      (∀ value, (selecting "n" "a" value).Literal conf Configuration.root) ∧
      conf.navigate .bare none (selectingPath "n" "a" "; |/=[]: \"" "x") = .ok (some 3) ∧
      conf.evaluate .bare none ("$(" ++ selectingPath "n" "a" "; |/=[]: \"" "x" ++ ")") = .ok "7" ∧
      conf.navigate .bare none (selectingPath "n" "a" "p::q" "x") = .ok (some 6) ∧
      conf.evaluate .bare none ("$(" ++ selectingPath "n" "a" "p::q" "x" ++ ")") =
        .error (.malformedPath "/n[a='p" .unclosedSelector) := by
  intro conf
  have n : IsWord "n" := ⟨by decide, by decide +kernel⟩
  have a : IsWord "a" := ⟨by decide, by decide +kernel⟩
  have x : IsWord "x" := ⟨by decide, by decide +kernel⟩
  have nodes : ∀ d ∈ conf.nodes.toList, ∀ raw ∈ d.value, hasReference raw.toList = false := by
    decide +kernel
  have values := literal_of_nodes nodes
  have literal : ∀ value, (selecting "n" "a" value).Literal conf Configuration.root :=
    fun value => (selecting "n" "a" value).literal_of_values values _
  have found : conf.navigate .bare none (selectingPath "n" "a" "; |/=[]: \"" "x") =
      .ok (some 3) := by
    decide +kernel
  obtain ⟨target, leads, stands, -⟩ := evaluate_selecting .bare n a x
    (by decide) (by decide) (by decide) (literal "; |/=[]: \"")
  obtain ⟨-, -, -, cut⟩ := evaluate_selecting .bare n a x
    (by decide) (by decide) (by decide) (literal "p::q")
  rw [leads] at found
  cases found
  obtain ⟨own, value, evaluated⟩ := stands (by decide) fun id _ => values id
  have seven : conf.valueOf? .bare (some 3) = .ok (some "7") := by decide +kernel
  rw [seven] at value
  cases value
  refine ⟨n, a, x, literal, leads none, evaluated none, by decide +kernel, ?_⟩
  exact cut ['p'] ['q'] (by decide) (by decide) (by decide) none

/-- The path leads to the attribute, and the reference by the path fails, although neither the
attribute nor the selected one holds a reference. -/
theorem not_evaluate_selecting_call :
    let conf := (withRoot "base").operateAll
      [(.bare, .addSection 0 "n" none), (.bare, .addAttribute 1 "a" (some "p::q")),
        (.bare, .addAttribute 1 "x" (some "7"))]
    conf.navigate .bare none "/n[a='p::q']/$x" = .ok (some 3) ∧
      conf.valueOf? .bare (some 3) = .ok (some "7") ∧
      conf.evaluate .bare none "$(/n[a='p::q']/$x)" =
        .error (.malformedPath "/n[a='p" .unclosedSelector) := by
  decide +kernel

end Configuration

end ConfTree
