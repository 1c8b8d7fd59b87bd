import ConfTree.Proofs.Path.Writing

/-!
# The first alternative that exists

The alternatives of a path are tried in order. If all values are literal, then each of them ends on
its own in a node, in none, or as malformed, whatever came before it (`followAlternative_alone`). So
the path ends as the first of its alternatives does that does not end in none
(`navigate_coalesced`).
-/

namespace ConfTree

namespace Path

open ConfTree.Configuration ConfTree.Text

variable {conf : Configuration}

/-! ## The first outcome that is not none -/

section

variable {α β ε : Type} {f : α → Except ε (Option β)}

/-- The outcome of the first item whose outcome is not none. -/
def firstOutcome (f : α → Except ε (Option β)) : List α → Except ε (Option β)
  | [] => .ok none
  | a :: rest =>
    match f a with
    | .ok none => firstOutcome f rest
    | outcome => outcome

/-- An item without an outcome is passed over. -/
lemma firstOutcome_cons_none {a : α} (h : f a = .ok none) (rest : List α) :
    firstOutcome f (a :: rest) = firstOutcome f rest := by
  rw [firstOutcome, h]

/-- An item with an outcome ends the search. -/
lemma firstOutcome_cons {a : α} (h : f a ≠ .ok none) (rest : List α) :
    firstOutcome f (a :: rest) = f a := by
  rw [firstOutcome]
  split
  · exact absurd ‹_› h
  · rfl

/-- Nothing is found exactly if each of the items leads to nothing. -/
lemma firstOutcome_eq_none {items : List α} :
    firstOutcome f items = .ok none ↔ ∀ a ∈ items, f a = .ok none := by
  induction items with
  | nil => exact ⟨fun _ => by simp, fun _ => rfl⟩
  | cons a rest ih =>
    rw [List.forall_mem_cons]
    by_cases h : f a = .ok none
    · rw [firstOutcome_cons_none h, ih, and_iff_right h]
    · rw [firstOutcome_cons h]
      exact ⟨fun e => absurd e h, fun e => absurd e.1 h⟩

/-- Any other outcome is that of an item behind items without an outcome. -/
lemma firstOutcome_eq_iff {items : List α} {r : Except ε (Option β)} (hr : r ≠ .ok none) :
    firstOutcome f items = r ↔
      ∃ before a after, items = before ++ a :: after ∧ f a = r ∧ ∀ b ∈ before, f b = .ok none := by
  induction items with
  | nil =>
    refine ⟨fun e => absurd e.symm hr, ?_⟩
    rintro ⟨before, a, after, e, -⟩
    cases before <;> cases e
  | cons x rest ih =>
    by_cases h : f x = .ok none
    · rw [firstOutcome_cons_none h, ih]
      constructor
      · rintro ⟨before, a, after, rfl, ha, none⟩
        exact ⟨x :: before, a, after, rfl, ha, List.forall_mem_cons.2 ⟨h, none⟩⟩
      · rintro ⟨before, a, after, e, ha, none⟩
        cases before with
        | nil =>
          cases e
          exact absurd (ha.symm.trans h) hr
        | cons b before =>
          cases e
          exact ⟨before, a, after, rfl, ha, (List.forall_mem_cons.1 none).2⟩
    · rw [firstOutcome_cons h]
      constructor
      · exact fun hx => ⟨[], x, rest, rfl, hx, by simp⟩
      · rintro ⟨before, a, after, e, ha, none⟩
        cases before with
        | nil =>
          cases e
          exact ha
        | cons b before =>
          cases e
          exact absurd (none x List.mem_cons_self) h

end

/-! ## Alternatives -/

/-- The text is the alternatives in order, with semicolons or bars between them and blanks around
them. -/
def Coalesces (alternatives : List String) (text : String) : Prop :=
  ∃ parts body, List.Forall₂ (fun part a => Padded a.toList part) parts alternatives ∧
    Joined isBar parts body ∧ Padded body text.toList

/-- An alternative is not blank and does not look like a required path, and it holds no separators
outside of brackets. -/
structure IsAlternative (a : String) : Prop where
  enclosed : Enclosed isBar a.toList
  solid : trimChars a.toList ≠ []
  optional : (trimChars a.toList).head? ≠ some '!'

section

variable {alternatives : List String} {text : String} (h : Coalesces alternatives text)
  (fit : ∀ a ∈ alternatives, IsAlternative a)

include h fit

/-- The text is cut into its alternatives again. -/
lemma Coalesces.parts :
    partsOf isBar text.toList = alternatives.map fun a => trimChars a.toList := by
  obtain ⟨parts, body, padded, joined, around⟩ := h
  have each : List.Forall₂ (fun a part => IsAlternative a ∧ Padded a.toList part)
      alternatives parts := (List.forall₂_and_left _ _).2 ⟨fit, padded.flip⟩
  have cut : List.Forall₂ (fun part a => Solid isBar part ∧ trimChars part = trimChars a.toList)
      parts alternatives := by
    refine each.flip.imp fun part a ⟨fit, padded⟩ => ?_
    exact ⟨fit.enclosed.solid.padded separating_isBar padded, padded.trimChars_eq⟩
  obtain ⟨solid, trimmed⟩ := (List.forall₂_and_left _ _).1 cut
  have trimmed : parts.map trimChars = alternatives.map fun a => trimChars a.toList := by
    rw [← List.forall₂_eq_eq_eq, List.forall₂_map_left_iff, List.forall₂_map_right_iff]
    exact trimmed
  rw [partsOf_padded separating_isBar around, partsOf_joined joined separating_isBar solid, trimmed,
    List.filter_eq_self]
  intro p hp
  obtain ⟨a, ha, rfl⟩ := List.mem_map.1 hp
  simpa using (fit a ha).solid

/-- The text does not look like a required path. -/
lemma Coalesces.optional : (trimChars text.toList).head? ≠ some '!' := by
  obtain ⟨parts, body, padded, joined, around⟩ := h
  rw [around.trimChars_eq]
  cases padded with
  | nil =>
    cases joined
    exact nofun
  | @cons part a parts alternatives first _ =>
    have this := fit a List.mem_cons_self
    obtain ⟨more, rfl⟩ := joined.prefix_of_cons
    obtain ⟨c, cs, trimmed⟩ := List.exists_cons_of_ne_nil this.solid
    have optional := this.optional
    have head : (trimChars part).head? = some c := by
      rw [first.trimChars_eq, trimmed]
      rfl
    rw [← first.trimChars_eq, head] at optional
    rw [head?_trimChars_append head more]
    exact optional

end

/-! ## Navigation -/

section

variable (literal : ∀ id, ∀ raw ∈ conf.verbatim? id, hasReference raw.toList = false)
  (process : Host) (start : Option NodeId)

include literal

/-- On its own, an alternative leads to a node or to none, or is malformed, and it ends so among
others whatever came before it. -/
lemma followAlternative_alone {a : String} (fit : IsAlternative a) :
    ((∃ found, conf.navigate process start a = .ok found) ∨
        ∃ fault, Alternative.read (trimChars a.toList) = .error fault ∧
          conf.navigate process start a = .error (.malformedPath (trim a) fault)) ∧
      followAlternative conf (nodeValue Eval process conf) start (trimChars a.toList) =
        MonadExcept.ofExcept (conf.navigate process start a) := by
  have outline : Outline.read a.toList = ⟨false, [trimChars a.toList]⟩ := by
    rw [Outline.read_optional fit.optional, partsOf_solid fit.enclosed.solid fit.solid]
  rw [Configuration.navigate, navigate_single outline, followAlternative]
  split
  · rename_i fault read
    exact ⟨.inr ⟨fault, read, rfl⟩, rfl⟩
  · rename_i alternative read
    have literals : ∀ segment ∈ alternative.segments, ∀ id, segment.Literal conf id :=
      fun segment _ => segment.literal_of_values literal
    obtain ⟨last, leads⟩ := follow_literal literals
      (if alternative.fromRoot then some Configuration.root else start)
    rw [leads process]
    exact ⟨.inl ⟨last, rfl⟩, rfl⟩

/-- Alternatives are tried up to the first one that does not end in none. -/
lemma firstExisting_literal {alternatives : List String}
    (fit : ∀ a ∈ alternatives, IsAlternative a) :
    firstExisting conf (nodeValue Eval process conf) start
        (alternatives.map fun a => trimChars a.toList) =
      MonadExcept.ofExcept (firstOutcome (conf.navigate process start) alternatives) := by
  induction alternatives with
  | nil => rfl
  | cons a rest ih =>
    obtain ⟨-, alone⟩ := followAlternative_alone literal process start (fit a List.mem_cons_self)
    have rest := ih fun b hb => fit b (List.mem_cons_of_mem _ hb)
    rw [List.map_cons, firstExisting, alone]
    by_cases none : conf.navigate process start a = .ok none
    · rw [firstOutcome_cons_none none, none, ← rest]
      rfl
    · rw [firstOutcome_cons none]
      generalize conf.navigate process start a = outcome at none
      cases outcome with
      | error e => rfl
      | ok found =>
        cases found with
        | none => exact absurd rfl none
        | some id => rfl

end

end Path

namespace Configuration

open ConfTree.Path ConfTree.Text

variable {conf : Configuration}

/-- A path of alternatives ends as the first of them does that does not end in none. A path that
requires a node ends likewise, but fails if all alternatives end in none. -/
theorem navigate_coalesced
    (literal : ∀ id, ∀ raw ∈ conf.verbatim? id, hasReference raw.toList = false)
    (process : Host) (start : Option NodeId) {alternatives : List String} {text : String}
    (fit : ∀ a ∈ alternatives, IsAlternative a) (h : Coalesces alternatives text) :
    (∀ a ∈ alternatives, (∃ found, conf.navigate process start a = .ok found) ∨
        ∃ fault, Alternative.read (trimChars a.toList) = .error fault ∧
          conf.navigate process start a = .error (.malformedPath (trim a) fault)) ∧
      (∀ r, r ≠ .ok none → (conf.navigate process start text = r ↔
        ∃ before a after, alternatives = before ++ a :: after ∧ conf.navigate process start a = r ∧
          ∀ b ∈ before, conf.navigate process start b = .ok none)) ∧
      (conf.navigate process start text = .ok none ↔
        ∀ a ∈ alternatives, conf.navigate process start a = .ok none) ∧
      conf.navigate process start ("!" ++ text) =
        match conf.navigate process start text with
        | .ok none => .error (.navigationFailed ("!" ++ text))
        | outcome => outcome := by
  have cut := h.parts fit
  have found := firstExisting_literal literal process start fit
  have optional : Outline.read text.toList =
      ⟨false, alternatives.map fun a => trimChars a.toList⟩ :=
    by rw [Outline.read_optional (h.optional fit), cut]
  have required : Outline.read ("!" ++ text).toList =
      ⟨true, alternatives.map fun a => trimChars a.toList⟩ := by
    rw [String.toList_append]
    exact (Outline.read_required text.toList).trans (by rw [cut])
  have whole : conf.navigate process start text =
      firstOutcome (conf.navigate process start) alternatives := by
    rw [navigate, Path.navigate, optional]
    simp only [found]
    rcases firstOutcome (conf.navigate process start) alternatives with _ | _ | _ <;> rfl
  refine ⟨fun a ha => ?_, fun r hr => ?_, ?_, ?_⟩
  · exact (followAlternative_alone literal process start (fit a ha)).1
  · rw [whole, firstOutcome_eq_iff hr]
  · rw [whole, firstOutcome_eq_none]
  · rw [whole, navigate, Path.navigate, required]
    simp only [found]
    rcases firstOutcome (conf.navigate process start) alternatives with _ | _ | _ <;> rfl

/-- Of three alternatives, the first leads to none, the second to a node, with separators in the
value that it looks for, and the third is malformed. Without the second one, the path is
malformed. -/
theorem navigate_coalesced_sample :
    let conf := (withRoot "base").operateAll
      [(.bare, .addSection 0 "s" none), (.bare, .addAttribute 1 "k" (some "a;b|c]"))]
    let alternatives := ["x", "[k='a;b|c]']/$k", "s]"]
    let text := " x ;[k='a;b|c]']/$k| s]"
    (∀ id, ∀ raw ∈ conf.verbatim? id, hasReference raw.toList = false) ∧
      (∀ a ∈ alternatives, IsAlternative a) ∧ Coalesces alternatives text ∧
      conf.navigate .bare (some 0) text = .ok (some 2) ∧
      (∃ before a after, alternatives = before ++ a :: after ∧
        conf.navigate .bare (some 0) a = .ok (some 2) ∧
          ∀ b ∈ before, conf.navigate .bare (some 0) b = .ok none) ∧
      conf.navigate .bare (some 0) ("!" ++ text) = .ok (some 2) ∧
      Coalesces ["x", "s]"] "x;s]" ∧
      conf.navigate .bare (some 0) "x;s]" = .error (.malformedPath "s]" .strayBracket) ∧
      Coalesces ["x", "y"] "x|y" ∧
      conf.navigate .bare (some 0) ("!" ++ "x|y") = .error (.navigationFailed "!x|y") := by
  intro conf alternatives text
  have nodes : ∀ d ∈ conf.nodes.toList, ∀ raw ∈ d.value, hasReference raw.toList = false := by
    decide +kernel
  have literal := literal_of_nodes nodes
  have plain : ∀ {a : String}, (∀ c ∈ a.toList, c ≠ '[' ∧ isBar c = false) →
      trimChars a.toList ≠ [] → (trimChars a.toList).head? ≠ some '!' → IsAlternative a :=
    fun free solid optional => ⟨.of_plain free, solid, optional⟩
  have x : IsAlternative "x" := plain (by simp [isBar]) (by decide) (by decide)
  have y : IsAlternative "y" := plain (by simp [isBar]) (by decide) (by decide)
  have stray : IsAlternative "s]" := plain (by simp [isBar]) (by decide) (by decide)
  have key : IsKey "k" := ⟨⟨by decide, by decide⟩, by decide, by simp⟩
  have selecting : IsAlternative "[k='a;b|c]']/$k" := by
    refine ⟨?_, by decide, by decide⟩
    have free : '\'' ∉ "a;b|c]".toList := by decide
    have rest : Enclosed isBar "/$k".toList := .of_plain (by simp [isBar])
    exact .bracketed (inside_matching key (.inl rfl) free) rest
  have fit : ∀ a ∈ alternatives, IsAlternative a := by
    simp only [alternatives, List.forall_mem_cons]
    exact ⟨x, selecting, stray, by simp⟩
  have joined : Coalesces alternatives text := by
    refine ⟨[" x ".toList, "[k='a;b|c]']/$k".toList, " s]".toList], text.toList, ?_, ?_, .refl _⟩
    · have blank : ∀ c ∈ [' '], isBlank c = true := by simp [isBlank]
      exact .cons ⟨[' '], [' '], blank, blank, by decide⟩ (.cons (.refl _)
        (.cons ⟨[' '], [], blank, by simp, by decide⟩ .nil))
    · have cut : text.toList =
          " x ".toList ++ ';' :: ("[k='a;b|c]']/$k".toList ++ '|' :: " s]".toList) := by decide
      rw [cut]
      exact .cons rfl (.cons rfl (.single _))
  have malformed : Coalesces ["x", "s]"] "x;s]" :=
    ⟨["x".toList, "s]".toList], "x;s]".toList, .cons (.refl _) (.cons (.refl _) .nil),
      .cons (c := ';') rfl (.single _), .refl _⟩
  have absent : Coalesces ["x", "y"] "x|y" :=
    ⟨["x".toList, "y".toList], "x|y".toList, .cons (.refl _) (.cons (.refl _) .nil),
      .cons (c := '|') rfl (.single _), .refl _⟩
  have found : conf.navigate .bare (some 0) text = .ok (some 2) := by decide +kernel
  obtain ⟨-, first, -, required⟩ := navigate_coalesced literal .bare (some 0) fit joined
  rw [found] at required
  have fit' : ∀ a ∈ ["x", "s]"], IsAlternative a :=
    List.forall_mem_cons.2 ⟨x, List.forall_mem_cons.2 ⟨stray, by simp⟩⟩
  have fit'' : ∀ a ∈ ["x", "y"], IsAlternative a :=
    List.forall_mem_cons.2 ⟨x, List.forall_mem_cons.2 ⟨y, by simp⟩⟩
  obtain ⟨-, first', -, -⟩ := navigate_coalesced literal .bare (some 0) fit' malformed
  obtain ⟨-, -, none, required'⟩ := navigate_coalesced literal .bare (some 0) fit'' absent
  rw [none.2 (by decide +kernel)] at required'
  refine ⟨literal, fit, joined, found, (first (.ok (some 2)) (by simp)).1 found, required,
    malformed, ?_, absent, required'⟩
  exact (first' (.error (.malformedPath "s]" .strayBracket)) (by simp)).2
    ⟨["x"], "s]", [], rfl, by decide +kernel, by decide +kernel⟩

end Configuration

end ConfTree
