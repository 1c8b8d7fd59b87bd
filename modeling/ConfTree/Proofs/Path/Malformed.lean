import ConfTree.Proofs.Operation.Reachable
import ConfTree.Proofs.Path.Failures

/-!
# Malformed paths

A path with one alternative is malformed or not by its text alone. An alternative is read as a whole
before it is followed, so a malformed one is reported from any start, wherever its other segments
lead. A selector may still evaluate a value with another malformed path in it, but of its own an
evaluation reports only texts that cannot be read (`candid_inherited`). A path that can be read is
reported only if a macro answers that it is malformed. The main statement is `navigate_malformed`.
-/

namespace ConfTree

open ConfTree.Configuration ConfTree.Eval ConfTree.Text

/-- If the error is that the path is malformed, then it cannot be read. -/
def ConfigError.Candid (path : String) (e : ConfigError) : Prop :=
  ∀ fault, e = .malformedPath path fault → Path.Alternative.read path.toList = .error fault

/-- No call of a macro is answered with the error that the path is malformed. -/
def Macro.Provider.Spares (provider : Macro.Provider) (path : String) : Prop :=
  ∀ instant call input fault, provider instant call input ≠ .error (.malformedPath path fault)

/-- What an evaluation raises of its own is candid. -/
lemma ConfigError.Raised.candid {path : String} {e : ConfigError} (h : e.Raised) :
    e.Candid path := by
  rintro fault rfl
  exact h

/-- The built-in macros spare every path that their fallback spares. -/
lemma spares_builtin {fallback : Option Macro.Provider} {path : String}
    (h : ∀ p ∈ fallback, p.Spares path) : (Macro.builtin fallback).Spares path := by
  intro instant call input fault fails
  obtain ⟨_, _, ⟨⟩⟩ | ⟨_, ⟨⟩⟩ | ⟨provider, hp, fails⟩ := Macro.builtin_error fails
  exact h provider hp instant call input fault fails

/-- Evaluations report a path that macros spare only if it cannot be read. -/
lemma candid_inherited {provider : Macro.Provider} {path : String} (macros : provider.Spares path) :
    Inherited provider fun _ step =>
      ∀ stack, Ensures stack (fun _ => True) (ConfigError.Candid path) step where
  pure _ _ := .pure trivial
  throw own _ := .throw own.candid
  answer instant call input stack s hs := by
    rw [apply_liftExcept]
    refine ⟨hs, fun _ _ => trivial, fun e fails fault malformed => ?_⟩
    rw [malformed] at fails
    exact absurd fails (macros instant call input fault)
  count text stack := by
    rintro ⟨_, n⟩ rfl
    rw [apply_countSubstitution]
    refine ⟨rfl, fun _ _ => trivial, fun e fails => ?_⟩
    dsimp only at fails
    split at fails
    · cases fails
      exact nofun
    · cases fails
  look h stack := by
    rintro s rfl
    exact h s.stack s.stack s rfl
  bind first rest stack := .bind (first stack) fun b _ => rest b stack
  within id step h stack := by
    rintro s rfl
    obtain ⟨restored, results, errors⟩ := h (id :: s.stack) { s with stack := id :: s.stack } rfl
    exact ⟨congrArg List.tail restored, results, errors⟩

namespace Path

/-- The text of a path with one alternative: that of the path without the blanks around it and
without the mark that requires a node. -/
def bareText (path : String) : String :=
  match trimChars path.toList with
  | '!' :: body => String.ofList (trimChars body)
  | body => String.ofList body

variable {path : String} {cs : List Char}

/-- A text without separators of alternatives is its own alternative. -/
lemma partsOf_free (free : ∀ c ∈ cs, isBar c = false) :
    partsOf isBar cs = [trimChars cs].filter fun p => !p.isEmpty := by
  rw [partsOf, splitOutside, splitFrom_of_free free]
  rfl

/-- A path without separators of alternatives has its bare text as its only alternative. -/
lemma alternatives_of_single (single : ∀ c ∈ path.toList, c ≠ ';' ∧ c ≠ '|') :
    (Outline.read path.toList).alternatives =
      [(bareText path).toList].filter fun p => !p.isEmpty := by
  have free : ∀ c ∈ trimChars path.toList, isBar c = false := by
    intro c hc
    obtain ⟨before, after, -, -, whole⟩ := padded_trimChars path.toList
    have := single c (whole ▸ by simp [hc])
    simp [isBar, this]
  have tight := tight_trimChars path.toList
  unfold Outline.read bareText
  generalize trimChars path.toList = text at free tight
  split
  · simp only [readAlternatives_eq, String.toList_ofList]
    exact partsOf_free fun c hc => free c (List.mem_cons_of_mem _ hc)
  · simp only [readAlternatives_eq, String.toList_ofList, partsOf_free free, tight.trimChars_eq]

/-- Segments cannot be read as soon as one of them is malformed. -/
lemma readSegments_error_iff {parts : List (List Char)} :
    (∃ fault, readSegments parts = .error fault) ↔
      ∃ segment ∈ parts, ∃ fault, readSegment segment = .error fault := by
  induction parts with
  | nil => simp [readSegments]
  | cons part parts ih =>
    rw [readSegments, List.exists_mem_cons_iff]
    cases first : readSegment part with
    | error fault => exact ⟨fun _ => .inl ⟨fault, rfl⟩, fun _ => ⟨fault, rfl⟩⟩
    | ok segment =>
      rw [← ih, ok_bind]
      cases readSegments parts with
      | error fault => simp [Bind.bind, Except.bind]
      | ok segments => simp [Bind.bind, Except.bind, Pure.pure, Except.pure]

/-- An alternative cannot be read as soon as one of its segments is malformed. -/
lemma Alternative.read_error_iff : (∃ fault, Alternative.read cs = .error fault) ↔
    ∃ segment ∈ partsOf isSlash cs, ∃ fault, readSegment segment = .error fault := by
  rw [Alternative.read_eq, ← readSegments_error_iff]
  cases readSegments (partsOf isSlash cs) <;> simp [Except.map]

section

variable {conf : Configuration} {valueOf : ValueOf Eval} {fault : PathFault}

/-- An alternative that cannot be read is reported, without a look at the configuration. -/
lemma navigate_of_unreadable (single : ∀ c ∈ path.toList, c ≠ ';' ∧ c ≠ '|')
    (unreadable : Alternative.read (bareText path).toList = .error fault)
    (start : Option NodeId) :
    navigate conf valueOf start path = throw (.malformedPath (bareText path) fault) := by
  have nonempty : (bareText path).toList ≠ [] := by
    intro empty
    rw [empty] at unreadable
    cases unreadable
  have alternatives := alternatives_of_single single
  rw [List.filter_cons_of_pos (by simp [nonempty]), List.filter_nil] at alternatives
  have read : followAlternative conf valueOf start (bareText path).toList =
      throw (.malformedPath (bareText path) fault) := by
    simp only [followAlternative, unreadable, String.ofList_toList]
  rw [navigate]
  simp only [alternatives, firstExisting, read]
  rfl

end

end Path

namespace Configuration

open ConfTree.Path

variable {path : String} {fault : PathFault}

/-- A path with one alternative that cannot be read is reported, wherever it leads. -/
lemma navigate_unreadable (single : ∀ c ∈ path.toList, c ≠ ';' ∧ c ≠ '|')
    (unreadable : Alternative.read (bareText path).toList = .error fault) (conf : Configuration)
    (process : Host) (start : Option NodeId) :
    conf.navigate process start path = .error (.malformedPath (bareText path) fault) := by
  rw [navigate, navigate_of_unreadable single unreadable]
  rfl

/-- A path with one alternative that macros spare is reported as malformed exactly if its text
cannot be read. -/
lemma navigate_malformed_iff {conf : Configuration} (macros : conf.provider.Spares (bareText path))
    (process : Host) (start : Option NodeId) (single : ∀ c ∈ path.toList, c ≠ ';' ∧ c ≠ '|')
    (fault : PathFault) :
    conf.navigate process start path = .error (.malformedPath (bareText path) fault) ↔
      Alternative.read (bareText path).toList = .error fault := by
  refine ⟨fun fails => ?_,
    fun unreadable => navigate_unreadable single unreadable conf process start⟩
  have inherited := candid_inherited macros
  have values : ∀ id stack, Ensures stack (fun _ => True) (ConfigError.Candid (bareText path))
      (nodeValue Eval process conf id) := inherited.nodeValue
  exact (inherited.navigate values start path [] .start rfl).2.2 _ fails _ rfl

/-- A path with one alternative that has a malformed segment is reported in every configuration and
from every start, be there a node or not, wherever the segments before this one lead. The report
has the text of the path without the blanks around it and without the mark in front. And of two
configurations whose macros do not themselves answer that this path is malformed, both report it or
none does. -/
theorem navigate_malformed {path : String} (single : ∀ c ∈ path.toList, c ≠ ';' ∧ c ≠ '|') :
    ((∃ segment ∈ partsOf isSlash (bareText path).toList,
        ∃ fault, readSegment segment = .error fault) →
      ∃ fault, ∀ (conf : Configuration) process start,
        conf.navigate process start path = .error (.malformedPath (bareText path) fault)) ∧
    ∀ (a b : Configuration),
      a.provider.Spares (bareText path) → b.provider.Spares (bareText path) →
      ∀ process process' start start' fault,
        a.navigate process start path = .error (.malformedPath (bareText path) fault) ↔
          b.navigate process' start' path = .error (.malformedPath (bareText path) fault) := by
  refine ⟨fun malformed => ?_, fun a b macros macros' process process' start start' fault => ?_⟩
  · obtain ⟨fault, unreadable⟩ := Alternative.read_error_iff.2 malformed
    exact ⟨fault, navigate_unreadable single unreadable⟩
  · exact (navigate_malformed_iff macros process start single fault).trans
      (navigate_malformed_iff macros' process' start' single fault).symm

/-- The last segment of the path is malformed, the first one leads nowhere in the first
configuration, and the second one starts from a node that it does not have. A path with a selector
is well formed although it meets a malformed path in the tree, and this one is reported. -/
theorem navigate_malformed_sample :
    let a := ((withRoot "base").addNode .sectionKind root "s" none).addNode .attributeKind 1 "k"
      (some "$(x])")
    (∀ path, a.provider.Spares path ∧ (withRoot "other").provider.Spares path) ∧
      (∀ c ∈ " ! t/.. /$ ".toList, c ≠ ';' ∧ c ≠ '|') ∧ bareText " ! t/.. /$ " = "t/.. /$" ∧
      (∃ fault, ∀ (conf : Configuration) process start, conf.navigate process start " ! t/.. /$ " =
        .error (.malformedPath (bareText " ! t/.. /$ ") fault)) ∧
      a.navigate .bare (some 1) " ! t/.. /$ " =
        .error (.malformedPath "t/.. /$" .missingAttributeName) ∧
      (withRoot "other").navigate .bare (some 7) " ! t/.. /$ " =
        .error (.malformedPath "t/.. /$" .missingAttributeName) ∧
      a.navigate .bare none "/s[k=x]" = .error (.malformedPath "x]" .strayBracket) ∧
      ∀ fault, a.navigate .bare none "/s[k=x]" ≠ .error (.malformedPath "/s[k=x]" fault) := by
  intro a
  have macros : ∀ path, a.provider.Spares path ∧ (withRoot "other").provider.Spares path := by
    intro path
    have builtin : (Macro.builtin none).Spares path := spares_builtin (by rintro _ ⟨⟩)
    exact ⟨builtin, builtin⟩
  have bare : bareText " ! t/.. /$ " = "t/.. /$" := by decide +kernel
  have alone : ∀ {path : String}, path.toList.all (fun c => c != ';' && c != '|') = true →
      ∀ c ∈ path.toList, c ≠ ';' ∧ c ≠ '|' := by
    intro path all c hc
    have apart := List.all_eq_true.1 all c hc
    rw [Bool.and_eq_true, bne_iff_ne, bne_iff_ne] at apart
    exact apart
  have single := alone (by decide +kernel : " ! t/.. /$ ".toList.all _ = true)
  have single' := alone (by decide +kernel : "/s[k=x]".toList.all _ = true)
  -- The third segment has no name behind its mark.
  have malformed : ∃ segment ∈ partsOf isSlash (bareText " ! t/.. /$ ").toList,
      ∃ fault, readSegment segment = .error fault :=
    ⟨['$'], by decide +kernel, .missingAttributeName, by decide +kernel⟩
  obtain ⟨fault, reported⟩ := (navigate_malformed single).1 malformed
  have here : a.navigate .bare (some 1) " ! t/.. /$ " =
      .error (.malformedPath "t/.. /$" .missingAttributeName) := by decide +kernel
  have same := (navigate_malformed single).2 a (withRoot "other") (macros _).1 (macros _).2 .bare
    .bare (some 1) (some 7) .missingAttributeName
  rw [bare] at same
  refine ⟨macros, single, bare, ⟨fault, reported⟩, here, same.1 here, by decide +kernel, ?_⟩
  -- In an empty configuration the selector looks at no attribute, and the path leads to no node.
  intro fault' fails
  have bare' : bareText "/s[k=x]" = "/s[k=x]" := by decide +kernel
  have absent : (withRoot "other").navigate .bare none "/s[k=x]" = .ok none := by decide +kernel
  have both := (navigate_malformed single').2 a (withRoot "other") (macros _).1 (macros _).2 .bare
    .bare none none fault'
  rw [bare', absent] at both
  exact nomatch both.1 fails

/-- A macro is asked for the value that the selector of a path looks at, and answers that this very
path is malformed, while a configuration without content finds nothing there. And a malformed path
that requires its node is reported without the mark in front. -/
theorem not_navigate_malformed :
    let a := (withRoot "base").operateAll
      [(.bare, .addSection 0 "s" none), (.bare, .addAttribute 1 "k" (some "$(::late)")),
        (.bare, .setProvider fun _ _ _ => .error (.malformedPath "/s[k=x]" .strayBracket))]
    Reachable a ∧ Reachable (withRoot "base") ∧
      a.navigate .bare (some root) "/s[k=x]" = .error (.malformedPath "/s[k=x]" .strayBracket) ∧
      (withRoot "base").navigate .bare (some root) "/s[k=x]" = .ok none ∧
      (withRoot "base").navigate .bare (some root) "! t/s[" =
        .error (.malformedPath "t/s[" .unclosedSelector) ∧
      ∀ fault, (withRoot "base").navigate .bare (some root) "! t/s[" ≠
        .error (.malformedPath "! t/s[" fault) := by
  intro a
  have reported : (withRoot "base").navigate .bare (some root) "! t/s[" =
      .error (.malformedPath "t/s[" .unclosedSelector) := by decide +kernel
  refine ⟨(Reachable.withRoot "base").operateAll _ (by simp [Operation.others]), .withRoot "base",
    by decide +kernel, by decide +kernel, reported, fun fault other => ?_⟩
  rw [reported] at other
  have same := (ConfigError.malformedPath.inj (Except.error.inj other)).1
  exact absurd same (by decide)

end Configuration

end ConfTree
