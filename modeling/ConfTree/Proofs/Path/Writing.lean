import ConfTree.Proofs.Evaluation.Plain
import ConfTree.Proofs.Path.Canonical

/-!
# Paths that are written down

`Written` lists the ways to write a segment, and `Writes` says that a text is a list of segments
with slashes between them and any blanks around them. Such a text is read as these segments, so a
path that is continued with a slash and another one leads where the other one leads from its end
(`navigate_written`). The attributes that selectors look at hold no references here, or else the
whole path might meet the limit of substitutions where neither part does.
-/

namespace ConfTree.Path

open ConfTree.Configuration ConfTree.Text

variable {conf : Configuration}

/-! ## Selectors that look at literal values -/

/-- The attributes that a step from the node looks at hold no references. -/
def Segment.Literal (conf : Configuration) (id : NodeId) : Segment → Prop
  | .child name (some (.matching key _)) =>
    ∀ s ∈ candidates conf id name, ∀ found ∈ keyAttribute? conf s key,
      ∀ raw ∈ conf.verbatim? found, hasReference raw.toList = false
  | _ => True

/-- A search among literal values leads to the same section whatever the process is. -/
lemma firstMatching_literal {key : String} (wanted : String) {ids : List NodeId}
    (literal : ∀ s ∈ ids, ∀ found ∈ keyAttribute? conf s key,
      ∀ raw ∈ conf.verbatim? found, hasReference raw.toList = false) :
    ∃ next, ∀ process,
      firstMatching conf (nodeValue Eval process conf) key wanted ids = pure next := by
  induction ids with
  | nil => exact ⟨none, fun _ => rfl⟩
  | cons id ids ih =>
    obtain ⟨next, rest⟩ := ih fun s hs => literal s (List.mem_cons_of_mem _ hs)
    cases key : keyAttribute? conf id key with
    | none => exact ⟨next, fun process => by rw [firstMatching, key]; exact rest process⟩
    | some found =>
      have value := nodeValue_literal (literal id List.mem_cons_self found key)
      by_cases wins : (conf.verbatim? found).getD "" = wanted
      · exact ⟨some id, fun process => by
          rw [firstMatching, key]
          simp only [value, pure_bind, if_pos wins]⟩
      · exact ⟨next, fun process => by
          rw [firstMatching, key]
          simp only [value, pure_bind, if_neg wins, rest]⟩

/-- A literal segment leads to the same node whatever the process is. -/
lemma step_literal {id : NodeId} {segment : Segment} (literal : segment.Literal conf id) :
    ∃ next, ∀ process, step conf (nodeValue Eval process conf) id segment = pure next := by
  unfold step
  split
  case h_7 key value => exact firstMatching_literal value literal
  all_goals exact ⟨_, fun _ => rfl⟩

/-- Where segments lead is fixed, if their selectors look at literal values only. -/
lemma follow_literal {segments : List Segment}
    (literal : ∀ segment ∈ segments, ∀ id, segment.Literal conf id) (node : Option NodeId) :
    ∃ last, ∀ process, follow conf (nodeValue Eval process conf) node segments = pure last :=
  follow_settled conf (fun s hs id => step_literal (literal s hs id)) node

/-- The values of live nodes hold no references if no value in the arena does. -/
lemma literal_of_nodes
    (literal : ∀ d ∈ conf.nodes.toList, ∀ raw ∈ d.value, hasReference raw.toList = false) :
    ∀ id, ∀ raw ∈ conf.verbatim? id, hasReference raw.toList = false := by
  intro id raw hraw
  obtain ⟨d, live, value⟩ := Option.bind_eq_some_iff.1 hraw
  exact literal d (Array.mem_toList_iff.2 (Array.mem_of_getElem? (live?_eq_some.1 live).1)) raw
    value

/-- Where no value holds references, no selector looks at one. -/
lemma Segment.literal_of_values
    (literal : ∀ id, ∀ raw ∈ conf.verbatim? id, hasReference raw.toList = false)
    (segment : Segment) (id : NodeId) : segment.Literal conf id := by
  unfold Segment.Literal
  split
  · exact fun _ _ found _ => literal found
  · trivial

/-! ## Ways to write a segment -/

/-- The text is a way to write the selector between brackets. -/
inductive Selector.Written : Selector → List Char → Prop where
  | index {n} :
    n < UInt64.size →
    Written (.index n) (toString n).toList
  | matching {key value q} :
    IsKey key →
    IsQuote q →
    q ∉ value.toList →
    Written (.matching key value) (key.toList ++ '=' :: quotedChars q value)

/-- The text is a way to write the segment. -/
inductive Segment.Written : Segment → List Char → Prop where
  | current :
    Written .current ['.']
  | parent :
    Written .parent ['.', '.']
  | named {name} :
    isPlainName name = true →
    GoodName name →
    Written (.child (some name) none) name.toList
  | selected {name selector cs} :
    (∀ n ∈ name, isPlainName n = true ∧ GoodName n) →
    selector.Written cs →
    Written (.child name (some selector)) (nameChars name ++ '[' :: (cs ++ [']']))
  | attributeNamed {name} :
    isPlainName name = true →
    GoodName name →
    Written (.attributeNamed name) ("$" ++ name).toList
  | attributeAt {n} :
    n < UInt64.size →
    Written (.attributeAt n) ("$" ++ indexText n).toList

/-- A selector is read as it is written. -/
lemma Selector.Written.reads {selector : Selector} {cs : List Char} (h : selector.Written cs) :
    Inside cs ∧ readSelector cs = some selector := by
  cases h with
  | index small => exact ⟨inside_toString _, readSelector_toString small⟩
  | matching isKey isQuote free =>
    exact ⟨inside_matching isKey isQuote free, readSelector_matching isKey isQuote⟩

/-- A written segment reads back as the segment. -/
lemma Segment.Written.spells {segment : Segment} {cs : List Char} (h : segment.Written cs) :
    Spells cs segment := by
  cases h with
  | current =>
    exact ⟨.of_plain (by simp [isSlash]), .of_plain (by simp [isBar]), tight_singleton (by decide),
      by decide, rfl⟩
  | parent =>
    have tight : Tight ('.' :: ([] ++ ['.'])) := tight_between (by decide) (by decide)
    exact ⟨.of_plain (by simp [isSlash]), .of_plain (by simp [isBar]), tight, by decide, rfl⟩
  | named plain good => exact .named plain good
  | selected fit written => exact .selected fit written.reads.1 written.reads.2
  | attributeNamed plain good => exact .attribute plain good
  | attributeAt small => exact .attributePosition small

/-- A written segment does not look like an absolute or a required path. -/
lemma Segment.Written.head {segment : Segment} {cs : List Char} (h : segment.Written cs) :
    cs.head? ≠ some '/' ∧ cs.head? ≠ some '!' := by
  cases h with
  | current | parent => exact ⟨by decide, by decide⟩
  | attributeNamed | attributeAt => simp
  | named plain => exact plain_head_path plain
  | @selected name _ _ known _ =>
    cases name with
    | none => simp [nameChars]
    | some name =>
      obtain ⟨plain, good⟩ := known name rfl
      have hne : name.toList ≠ [] := fun e => good.1 (String.toList_eq_nil_iff.1 e)
      rw [nameChars, Option.getD_some, List.head?_append_of_ne_nil _ hne]
      exact plain_head_path plain

/-! ## Texts of several segments -/

/-- The text is the segments in order, with slashes between them and blanks around them. -/
def Writes (segments : List Segment) (text : List Char) : Prop :=
  ∃ parts, List.Forall₂ (fun part segment => ∃ cs, segment.Written cs ∧ Padded cs part)
    parts segments ∧ Joined isSlash parts text

variable {segments : List Segment} {text : List Char}

/-- A written text starts with its first segment, after blanks. -/
lemma Writes.head (h : Writes segments text) (hne : segments ≠ []) :
    text.head? ≠ some '/' ∧ (trimChars text).head? ≠ some '/' ∧
      (trimChars text).head? ≠ some '!' ∧ trimChars text ≠ [] := by
  obtain ⟨parts, written, joined⟩ := h
  cases written with
  | nil => exact absurd rfl hne
  | @cons part segment parts segments first _ =>
    obtain ⟨cs, first, padded⟩ := first
    obtain ⟨slash, bang⟩ := first.head
    have spells := first.spells
    obtain ⟨c, tail, rfl⟩ := List.exists_cons_of_ne_nil spells.ne_nil
    obtain ⟨more, rfl⟩ := joined.prefix_of_cons
    have trimmed : (trimChars part).head? = some c := by
      rw [padded.trimChars_eq, spells.tight.trimChars_eq]
      rfl
    have trimmed := head?_trimChars_append trimmed more
    rw [trimmed]
    refine ⟨fun e => slash ?_, slash, bang, fun e => ?_⟩
    · obtain ⟨rest, e⟩ := List.head?_eq_some_iff.1 e
      rw [e] at trimmed
      exact trimmed.symm.trans (head?_trimChars_cons (by decide) rest)
    · rw [e] at trimmed
      cases trimmed

/-- A written text is a single alternative, and its parts spell the segments. -/
lemma Writes.parts (h : Writes segments text) :
    Solid isBar text ∧ List.Forall₂ Spells (partsOf isSlash text) segments := by
  obtain ⟨padded, written, joined⟩ := h
  have each : List.Forall₂ (fun part segment => (Solid isSlash part ∧ Solid isBar part) ∧
      Spells (trimChars part) segment) padded segments := by
    refine written.imp fun part segment ⟨cs, written, padded⟩ => ?_
    have spells := written.spells
    rw [padded.trimChars_eq, spells.tight.trimChars_eq]
    exact ⟨⟨spells.slashes.padded separating_isSlash padded,
      spells.bars.padded separating_isBar padded⟩, spells⟩
  obtain ⟨solid, spells⟩ := (List.forall₂_and_left _ _).1 each
  have spells : List.Forall₂ Spells (padded.map trimChars) segments :=
    List.forall₂_map_left_iff.2 spells
  refine ⟨joined.solid (fun _ => solid_slash) fun p hp => (solid p hp).2, ?_⟩
  rw [partsOf_joined joined separating_isSlash fun p hp => (solid p hp).1, List.filter_eq_self.2]
  · exact spells
  · exact forall_of_spells spells fun cs _ s => by simpa using s.ne_nil

/-- A written text is read as its segments, from the node where it starts. -/
lemma Writes.read (h : Writes segments text) :
    Alternative.read text = .ok ⟨false, segments⟩ := by
  by_cases hne : segments = []
  · subst hne
    obtain ⟨parts, written, joined⟩ := h
    cases written
    cases joined
    rfl
  · have relative := (h.head hne).1
    rw [Alternative.read_eq, readSegments_spells h.parts.2]
    simp only [relative, decide_false]
    rfl

/-- A written text leads where its segments lead. -/
lemma Writes.navigate (h : Writes segments text) (hne : segments ≠ []) (valueOf : ValueOf Eval)
    (start : Option NodeId) :
    navigate conf valueOf start (String.ofList text) = follow conf valueOf start segments := by
  obtain ⟨-, relative, optional, solid⟩ := h.head hne
  obtain ⟨bars, spells⟩ := h.parts
  exact navigate_relative bars spells relative optional solid start

/-- Two written texts with a slash between them are one. -/
lemma Writes.append {p q : List Segment} {first rest : List Char} (hp : Writes p first)
    (hq : Writes q rest) (hne : p ≠ []) (hne' : q ≠ []) :
    Writes (p ++ q) (first ++ '/' :: rest) := by
  obtain ⟨ps, written, joined⟩ := hp
  obtain ⟨qs, written', joined'⟩ := hq
  refine ⟨ps ++ qs, List.rel_append written written', joined.append ?_ rfl joined' ?_⟩
  · rintro rfl
    cases written
    exact hne rfl
  · rintro rfl
    cases written'
    exact hne' rfl

end Path

namespace Configuration

open ConfTree.Path

variable {conf : Configuration}

/-- Segments that are written with slashes between them are read as these segments, and two paths of
such segments with a slash between them lead where the second leads from the end of the first. -/
theorem navigate_written (conf : Configuration) :
    (∀ {segments text}, Writes segments text → Alternative.read text = .ok ⟨false, segments⟩) ∧
      ∀ {p q : List Segment} {first rest : List Char}, p ≠ [] → q ≠ [] → Writes p first →
        Writes q rest → (∀ segment ∈ p ++ q, ∀ id, segment.Literal conf id) →
        ∀ (process : Host) (start : Option NodeId), ∃ middle last,
          conf.navigate process start (String.ofList first) = .ok middle ∧
            conf.navigate process middle (String.ofList rest) = .ok last ∧
            conf.navigate process start (String.ofList (first ++ '/' :: rest)) = .ok last := by
  refine ⟨Writes.read, fun {p q first rest} hne hne' hp hq literal process start => ?_⟩
  have literalP : ∀ segment ∈ p, ∀ id, segment.Literal conf id := fun s hs =>
    literal s (List.mem_append_left q hs)
  have literalQ : ∀ segment ∈ q, ∀ id, segment.Literal conf id := fun s hs =>
    literal s (List.mem_append_right p hs)
  obtain ⟨middle, toMiddle⟩ := follow_literal literalP start
  obtain ⟨last, toLast⟩ := follow_literal literalQ middle
  have whole : p ++ q ≠ [] := by simp [hne]
  refine ⟨middle, last, ?_, ?_, ?_⟩
  · rw [navigate, hp.navigate hne, toMiddle]
    rfl
  · rw [navigate, hq.navigate hne', toLast]
    rfl
  · rw [navigate, (hp.append hq hne hne').navigate whole, follow_append, toMiddle, pure_bind,
      toLast]
    rfl

/-- A value in quotes that looks like anything else in a path, and blanks around the segments. -/
theorem navigate_written_sample :
    let conf := (withRoot "base").operateAll [(.bare, .addSection 0 "svc" none),
      (.bare, .addAttribute 1 "url" (some "a;b|]/= \"")),
      (.bare, .addAttribute 1 "port" (some "80"))]
    let p := [.child (some "svc") (some (.matching "url" "a;b|]/= \"")), .parent]
    let q := [.child none (some (.index 0)), .attributeAt 1]
    let first := "svc[url='a;b|]/= \"']/ ..".toList
    let rest := " [0] /$[1]".toList
    p ≠ [] ∧ q ≠ [] ∧ Writes p first ∧ Writes q rest ∧
      (∀ segment ∈ p ++ q, ∀ id, segment.Literal conf id) ∧
      Alternative.read first = .ok ⟨false, p⟩ ∧
      conf.navigate .bare (some 0) (String.ofList (first ++ '/' :: rest)) = .ok (some 3) ∧
      ∃ middle last, conf.navigate .bare (some 0) (String.ofList first) = .ok middle ∧
        conf.navigate .bare middle (String.ofList rest) = .ok last ∧
        conf.navigate .bare (some 0) (String.ofList (first ++ '/' :: rest)) = .ok last := by
  intro conf p q first rest
  have plain : ∀ n ∈ some "svc", isPlainName n = true ∧ GoodName n := by
    rintro _ ⟨⟩
    exact ⟨by decide, by decide, by decide⟩
  have key : IsKey "url" := ⟨⟨by decide, by decide⟩, by decide, by simp⟩
  have blank : ∀ c ∈ [' '], Text.isBlank c = true := by simp [Text.isBlank]
  have hp : Writes p first := by
    refine ⟨["svc[url='a;b|]/= \"']".toList, " ..".toList], ?_, ?_⟩
    · exact .cons ⟨_, .selected plain (.matching key (.inl rfl) (by decide)), .refl _⟩
        (.cons ⟨_, .parent, [' '], [], blank, by simp, by decide⟩ .nil)
    · exact .cons (c := '/') rfl (.single _)
  have hq : Writes q rest := by
    refine ⟨[" [0] ".toList, "$[1]".toList], ?_, ?_⟩
    · have unnamed : ∀ n ∈ (none : Option String), isPlainName n = true ∧ GoodName n := by simp
      exact .cons ⟨_, .selected unnamed (.index (by decide)), [' '], [' '], blank, blank,
        by decide⟩ (.cons ⟨_, .attributeAt (by decide), .refl _⟩ .nil)
    · exact .cons (c := '/') rfl (.single _)
  have values : ∀ d ∈ conf.nodes.toList, ∀ raw ∈ d.value, hasReference raw.toList = false := by
    decide +kernel
  have literal : ∀ segment ∈ p ++ q, ∀ id, segment.Literal conf id :=
    fun segment _ => segment.literal_of_values (literal_of_nodes values)
  have hne : p ≠ [] := by decide
  have hne' : q ≠ [] := by decide
  exact ⟨hne, hne', hp, hq, literal, (navigate_written conf).1 hp, by decide +kernel,
    (navigate_written conf).2 hne hne' hp hq literal .bare (some 0)⟩

end Configuration

end ConfTree
