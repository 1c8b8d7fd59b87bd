import ConfTree.Proofs.Path.Canonical

/-!
# Lookups and paths

A section is asked for an entry by its name or by its position, or a path of one segment is followed
from it. A lookup trims the name that it is given and looks for it among the entries. A path is
trimmed too, cut at its separators and read as a segment, and its step looks for the name that this
segment has. Both come to the same node for every name that can stand in a path
(`navigate_lookup`), with blanks around it or not.
-/

namespace ConfTree

open ConfTree.Configuration ConfTree.Text

namespace Path

variable {conf : Configuration} {valueOf : ValueOf Eval} {cs text : List Char} {segment : Segment}

/-- A segment with blanks around it is followed as a path of its own. -/
lemma Spells.navigate (spells : Spells cs segment) (padded : Padded cs text)
    (relative : cs.head? ≠ some '/') (optional : cs.head? ≠ some '!') (start : Option NodeId) :
    navigate conf valueOf start (String.ofList text) = follow conf valueOf start [segment] := by
  have trimmed : trimChars text = cs := by rw [padded.trimChars_eq, spells.tight.trimChars_eq]
  have parts : partsOf isSlash text = [cs] := by
    rw [partsOf_padded separating_isSlash padded, partsOf_solid spells.slashes,
      spells.tight.trimChars_eq]
    rw [spells.tight.trimChars_eq]
    exact spells.ne_nil
  refine navigate_relative (spells.bars.padded separating_isBar padded) ?_ ?_ ?_ ?_ start
  · rw [parts]
    exact .cons spells .nil
  all_goals rw [trimmed]
  · exact relative
  · exact optional
  · exact spells.ne_nil

/-- A path of one segment leads where its step leads, if this looks at no value. -/
lemma Spells.navigate_step (spells : Spells cs segment) (padded : Padded cs text)
    (relative : cs.head? ≠ some '/') (optional : cs.head? ≠ some '!') {id : NodeId}
    {found : Option NodeId}
    (step : ∀ valueOf : ValueOf Eval, step conf valueOf id segment = pure found)
    (process : Host) :
    conf.navigate process (some id) (String.ofList text) = .ok found := by
  rw [Configuration.navigate, spells.navigate padded relative optional, follow, step, pure_bind]
  cases found <;> rfl

end Path

namespace Configuration

open ConfTree.Path

variable {conf : Configuration} {s : String}

/-- What stands in a list of entries is live. -/
lemma WellFormed.bind_liveId? (wf : conf.WellFormed) {id : NodeId} {d : NodeData} {k : Kind}
    (h : conf.live? id = some d) (i : Nat) :
    (d.entries k)[i]?.bind conf.liveId? = (d.entries k)[i]? := by
  cases found : (d.entries k)[i]? with
  | none => rfl
  | some c =>
    obtain ⟨e, live, -⟩ := wf.listed id d k c h (List.mem_of_getElem? found)
    rw [Option.bind_some, liveId?, live]
    rfl

/-- A child section is found at its place in the list. -/
lemma WellFormed.childAt?_eq (wf : conf.WellFormed) (id : NodeId) (i : Nat) :
    conf.childAt? id i = (conf.childrenOf id)[i]? := by
  cases h : conf.live? id with
  | none => simp [childAt?, childrenOf, h]
  | some d => rw [childAt?, childrenOf_eq h, wf.bind_liveId? h]

/-- An attribute is found at its place in the list. -/
lemma WellFormed.attributeAt?_eq (wf : conf.WellFormed) (id : NodeId) (i : Nat) :
    conf.attributeAt? id i = (conf.attributesOf id)[i]? := by
  cases h : conf.live? id with
  | none => simp [attributeAt?, attributesOf, h]
  | some d => rw [attributeAt?, attributesOf_eq h, wf.bind_liveId? h]

section

variable (nonblank : trim s ≠ "") (plain : isPlainName (trim s) = true) (process : Host)
  (id : NodeId)

include nonblank plain

/-- A name is followed to the first child section that has it. -/
lemma navigate_name : conf.navigate process (some id) s = .ok (conf.child? id s) := by
  have spells := Spells.named plain ⟨nonblank, trim_trim s⟩
  have padded : Padded (trim s).toList s.toList := by
    rw [trim, String.toList_ofList]
    exact padded_trimChars s.toList
  obtain ⟨relative, optional⟩ := plain_head_path plain
  have step : ∀ valueOf : ValueOf Eval, step conf valueOf id (.child (some (trim s)) none) =
      pure (conf.child? id s) := by
    intro valueOf
    rw [Path.step, candidates, List.head?_filter]
    rfl
  have followed := spells.navigate_step padded relative optional step process
  rwa [String.ofList_toList] at followed

/-- A marked name is followed to the first attribute that has it. -/
lemma navigate_markedName :
    conf.navigate process (some id) ("$" ++ s) = .ok (conf.attribute? id s) := by
  obtain ⟨before, after, hb, ha, whole⟩ := padded_trimChars s.toList
  have name : (trim s).toList = trimChars s.toList := by rw [trim, String.toList_ofList]
  have spells := Spells.attributeBehind hb plain ⟨nonblank, trim_trim s⟩
  have padded : Padded ('$' :: (before ++ (trim s).toList)) ("$" ++ s).toList := by
    refine ⟨[], after, by simp, ha, ?_⟩
    rw [String.toList_append, whole, name]
    simp
  have step : ∀ valueOf : ValueOf Eval, step conf valueOf id (.attributeNamed (trim s)) =
      pure (conf.attribute? id s) := fun _ => rfl
  have followed := spells.navigate_step padded (by simp) (by simp) step process
  rwa [String.ofList_toList] at followed

end

/-- In a reachable configuration a lookup and a path of one segment agree, without an error. Every
text whose trimmed form is a name that can stand in a path leads from a node to the child section
that a lookup of the text finds, and to the attribute with a mark in front of it; so does every
position that fits a machine word, in brackets. -/
theorem navigate_lookup (reach : Reachable conf) (process : Host) (id : NodeId) :
    (∀ s, trim s ≠ "" → isPlainName (trim s) = true →
      conf.navigate process (some id) s = .ok (conf.child? id s) ∧
        conf.navigate process (some id) ("$" ++ s) = .ok (conf.attribute? id s)) ∧
    ∀ i : UInt64,
      conf.navigate process (some id) (indexText i.toNat) = .ok (conf.childAt? id i.toNat) ∧
        conf.navigate process (some id) ("$" ++ indexText i.toNat) =
          .ok (conf.attributeAt? id i.toNat) := by
  refine ⟨fun s nonblank plain => ⟨navigate_name nonblank plain process id,
    navigate_markedName nonblank plain process id⟩, fun i => ?_⟩
  have small := i.toNat_lt_size
  rw [reach.wellFormed.childAt?_eq, reach.wellFormed.attributeAt?_eq]
  have step_child : ∀ valueOf : ValueOf Eval,
      step conf valueOf id (.child none (some (.index i.toNat))) =
      pure (conf.childrenOf id)[i.toNat]? := fun _ => rfl
  have step_attribute : ∀ valueOf : ValueOf Eval, step conf valueOf id (.attributeAt i.toNat) =
      pure (conf.attributesOf id)[i.toNat]? := fun _ => rfl
  have child := (Spells.position small).navigate_step (.refl _) (by simp [toList_indexText])
    (by simp [toList_indexText]) step_child process
  have marked := (Spells.attributePosition small).navigate_step (.refl _) (by simp) (by simp)
    step_attribute process
  rw [String.ofList_toList] at child marked
  exact ⟨child, marked⟩

/-- The first of two sections of one name, and an attribute, with other cases and blanks around. -/
theorem navigate_lookup_sample :
    let conf := (withRoot "base").operateAll
      [(.bare, .addSection 0 "Data \"x\"" none), (.bare, .addSection 0 "data \"x\"" none),
        (.bare, .addAttribute 0 "=key" none)]
    Reachable conf ∧
      (trim "\tDATA \"X\" " ≠ "" ∧ isPlainName (trim "\tDATA \"X\" ") = true ∧
        conf.child? 0 "\tDATA \"X\" " = some 1 ∧
        conf.navigate .bare (some 0) "\tDATA \"X\" " = .ok (some 1)) ∧
      (trim " =Key" ≠ "" ∧ isPlainName (trim " =Key") = true ∧
        conf.attribute? 0 " =Key" = some 3 ∧ conf.navigate .bare (some 0) "$ =Key" = .ok (some 3)) ∧
      conf.childAt? 0 1 = some 2 ∧ conf.navigate .bare (some 0) "[1]" = .ok (some 2) := by
  intro conf
  have reach : Reachable conf :=
    (Reachable.withRoot "base").operateAll _ (by simp [Operation.others])
  obtain ⟨names, positions⟩ := navigate_lookup reach .bare 0
  have section_nonblank : trim "\tDATA \"X\" " ≠ "" := by decide +kernel
  have section_plain : isPlainName (trim "\tDATA \"X\" ") = true := by decide +kernel
  have nonblank : trim " =Key" ≠ "" := by decide +kernel
  have plain : isPlainName (trim " =Key") = true := by decide +kernel
  have child : conf.child? 0 "\tDATA \"X\" " = some 1 := by decide +kernel
  have marked : conf.attribute? 0 " =Key" = some 3 := by decide +kernel
  have second : conf.childAt? 0 1 = some 2 := by decide +kernel
  refine ⟨reach, ⟨section_nonblank, section_plain, child, ?_⟩, ⟨nonblank, plain, marked, ?_⟩,
    second, ?_⟩
  · rw [← child]
    exact (names _ section_nonblank section_plain).1
  · rw [← marked]
    exact (names _ nonblank plain).2
  · rw [← second]
    exact (positions 1).1

end Configuration

end ConfTree
