import ConfTree.Proofs.Tree.NameClasses
import ConfTree.Proofs.Tree.Transplant

/-!
# Structural equality is a congruence

Nodes are structurally equal when they have one canonical form, so structural equality is an
equivalence on all nodes of all configurations. The canonical form of a tree is built from those of
its parts. So trees that agree but for a child section at one place, at whatever depth, are
structurally equal if these child sections are (`canonical_fill`), and a tree into which one of two
structurally equal nodes is imported is the same as with the other (`alike_of_transplanted`).
-/

namespace ConfTree

open ConfTree.Text ConfTree.Configuration

/-! ## Nodes of all configurations -/

/-- A node of a configuration, or no node. -/
structure Handle where
  conf : Configuration
  node : Option NodeId

namespace Handle

def Exists (x : Handle) : Prop := ∃ d, x.node.bind x.conf.live? = some d

/-- The nodes are structurally equal. -/
def Same (x y : Handle) : Prop := structurallyEqual x.conf x.node y.conf y.node = true

/-- The kind and the canonical form of a node that exists. -/
def canonical? (x : Handle) : Option (Kind × Shape) := x.node.bind x.conf.canonical?

variable {x y : Handle}

/-- Nodes are the same exactly if they have the same canonical form or none. -/
lemma same_iff : x.Same y ↔ x.canonical? = y.canonical? := structurallyEqual_iff

/-- Only what does not exist has no canonical form. -/
lemma canonical?_eq_none : x.canonical? = none ↔ ¬ x.Exists := by
  obtain ⟨conf, node⟩ := x
  cases node with
  | none => simp [canonical?, Exists]
  | some id => cases h : conf.live? id <;> simp [canonical?, Exists, Configuration.canonical?, h]

/-- To have one canonical form is an equivalence. -/
lemma equivalence_same : Equivalence Same := by
  constructor
  case refl => exact fun _ => same_iff.2 rfl
  case symm => exact fun h => same_iff.2 (same_iff.1 h).symm
  case trans => exact fun h k => same_iff.2 ((same_iff.1 h).trans (same_iff.1 k))

end Handle

/-! ## Child sections at one place -/

namespace Shape

/-- A section with a place among its child sections. -/
structure Context where
  name : String
  value : Option String
  attributes : List (String × Option String)
  before : List Shape
  after : List Shape

/-- The section with a child section at the place. -/
def Context.around (context : Context) (s : Shape) : Shape :=
  .mk context.name context.value context.attributes (context.before ++ s :: context.after)

/-- A section with another one at a place below it. The contexts lead down to this place. -/
def fill (contexts : List Context) (s : Shape) : Shape := contexts.foldr Context.around s

variable {s t : Shape}

/-- Within one context, sections with the same canonical form make the same one. -/
lemma canonical_around (context : Context) (h : s.canonical = t.canonical) :
    (context.around s).canonical = (context.around t).canonical := by
  simp only [Context.around, canonical, canonicals_eq_map, List.map_append, List.map_cons, h]

/-- The canonical form of a section depends on the canonical form of what is at the place. -/
lemma canonical_fill (contexts : List Context) (h : s.canonical = t.canonical) :
    (fill contexts s).canonical = (fill contexts t).canonical := by
  induction contexts with
  | nil => exact h
  | cons context contexts ih => exact canonical_around context ih

end Shape

/-- Sections that differ at one place are structurally equal if what is there is. -/
lemma alike_of_fill {a b a' b' : Configuration} {x y c c' : NodeId} {contexts : List Shape.Context}
    (hx : a.isSection x = true) (hy : b.isSection y = true) (hc : a'.isSection c = true)
    (here : a.shape x = Shape.fill contexts (a'.shape c))
    (there : b.shape y = Shape.fill contexts (b'.shape c')) (same : Alike a' b' c c') :
    Alike a b x y := by
  obtain ⟨d, live, sec⟩ := isSection_iff.1 hx
  obtain ⟨e, live', sec'⟩ := isSection_iff.1 hy
  obtain ⟨u, hu, -⟩ := isSection_iff.1 hc
  obtain ⟨v, -, -, form⟩ := same.live hu
  refine (structurallyEqual_live_iff live live').2 ⟨sec.trans sec'.symm, ?_⟩
  rw [here, there]
  exact Shape.canonical_fill contexts form

/-! ## Imported nodes -/

/-- The trees into which structurally equal nodes are transplanted stay the same. -/
lemma alike_of_transplanted {conf after after' : Configuration} {parent : Nat} {pd : NodeData}
    {kind : Kind} {s t : Shape} (wf : conf.WellFormed) (hp : conf.live? parent = some pd)
    (sec : pd.kind = .sectionKind) (first : Transplanted conf parent pd kind s after)
    (second : Transplanted conf parent pd kind t after') (same : s.canonical = t.canonical)
    {x : Nat} {d : NodeData} (hx : conf.live? x = some d) : Alike after after' x x := by
  have new : Alike after after' conf.nodes.size conf.nodes.size := by
    obtain ⟨u, hu, kind₁, -⟩ := first.copy
    obtain ⟨v, hv, kind₂, -⟩ := second.copy
    rw [alike_iff, canonical?, canonical?, hu, hv, Option.map_some, Option.map_some, kind₁, kind₂,
      first.shape, second.shape, same]
  have own : ∀ e : NodeData, e.Resembles e := fun e => ⟨rfl, sameName_refl _, rfl⟩
  -- Entries come nearer to the end of the arena than their parents.
  induction rest : conf.nodes.size - x using Nat.strongRecOn generalizing x d with
  | ind n ih =>
    have old : ∀ k, ∀ c ∈ d.entries k, Alike after after' c c := by
      intro k c hc
      obtain ⟨e, he, -⟩ := wf.listed x d k c hx hc
      have lt := wf.lt_of_mem_entries hx hc
      have := lt_size_of_live he
      exact ih _ (by omega) he rfl
    have inside := lt_size_of_live hx
    by_cases here : x = parent
    · subst here
      rw [hp] at hx
      cases hx
      refine alike_of_entries first.wellFormed second.wellFormed first.host second.host (own _)
        fun k => ?_
      rw [List.forall₂_same, NodeData.entries_push sec]
      intro c hc
      split at hc
      · rcases List.mem_append.1 hc with hc | hc
        · exact old k c hc
        · rw [List.mem_singleton.1 hc]
          exact new
      · exact old k c hc
    · have live₁ : after.live? x = some d := by
        rw [live?, first.kept x inside here, ← live?, hx]
      have live₂ : after'.live? x = some d := by
        rw [live?, second.kept x inside here, ← live?, hx]
      exact alike_of_entries first.wellFormed second.wellFormed live₁ live₂ (own d)
        fun k => List.forall₂_same.2 (old k)

/-- Structural equality is an equivalence on the nodes of all configurations, in which an absent
node is equal to absent nodes only. Nodes that agree themselves are structurally equal if their
entries are, one by one. Sections of one shape but for child sections at one place below them, which
are structurally equal, are structurally equal. If structurally equal nodes are imported in turn
below a section of one configuration, then all its nodes are structurally equal in the two
configurations that come about. -/
theorem structurallyEqual_congruence :
    Equivalence Handle.Same ∧
      (∀ x y : Handle, ¬ x.Exists → (x.Same y ↔ ¬ y.Exists)) ∧
      (∀ (a b : Configuration) (x y : NodeId) (d e : NodeData), a.Reachable → b.Reachable →
        a.live? x = some d → b.live? y = some e → d.Resembles e →
        (∀ k, List.Forall₂ (Alike a b) (d.entries k) (e.entries k)) →
        structurallyEqual a (some x) b (some y) = true) ∧
      (∀ (contexts : List Shape.Context) (a b a' b' : Configuration) (x y c c' : NodeId),
        a.isSection x = true → b.isSection y = true → a'.isSection c = true →
        a.shape x = Shape.fill contexts (a'.shape c) →
        b.shape y = Shape.fill contexts (b'.shape c') →
        structurallyEqual a' (some c) b' (some c') = true →
        structurallyEqual a (some x) b (some y) = true) ∧
      ∀ (conf b b' : Configuration) (parent n n' : NodeId),
        conf.Reachable → b.Reachable → b'.Reachable → conf.readOnly = false →
        conf.isSection parent = true → (∃ d, b.live? n = some d) →
        structurallyEqual b (some n) b' (some n') = true →
        ∃ c after after', (Edit.importNode parent b n).apply conf = (.ok c, after) ∧
          (Edit.importNode parent b' n').apply conf = (.ok c, after') ∧
          ∀ x d, conf.live? x = some d →
            structurallyEqual after (some x) after' (some x) = true := by
  refine ⟨Handle.equivalence_same, fun x y absent => ?_, ?_, ?_, ?_⟩
  · rw [Handle.same_iff, Handle.canonical?_eq_none.2 absent, eq_comm, Handle.canonical?_eq_none]
  · intro a b x y d e reach reach' hx hy own entries
    exact alike_of_entries reach.wellFormed reach'.wellFormed hx hy own entries
  · intro contexts a b a' b' x y c c' hx hy hc here there same
    exact alike_of_fill hx hy hc here there same
  · intro conf b b' parent n n' reach reach₁ reach₂ writable section' live same
    obtain ⟨pd, hp, sec⟩ := isSection_iff.1 section'
    obtain ⟨d, hn⟩ := live
    obtain ⟨e, hn', kinds, forms⟩ := Alike.live same hn
    have wf := reach.wellFormed
    obtain ⟨after, run, first⟩ := importNode_spec wf writable reach₁.wellFormed hp sec hn
    obtain ⟨after', run', second⟩ := importNode_spec wf writable reach₂.wellFormed hp sec hn'
    rw [← kinds] at second
    exact ⟨_, after, after', run, run', fun x xd hx =>
      alike_of_transplanted wf hp sec first second forms hx⟩

/-- Of two sections that differ in the case of their names, and in an empty value, one is imported
below the root and then the other. -/
theorem structurallyEqual_congruence_imported :
    let conf := (withRoot "base").operateAll [(.bare, .addAttribute 0 "x" (some "1"))]
    let b := (withRoot "b").operateAll
      [(.bare, .addSection 0 "log" none), (.bare, .addAttribute 1 "level" (some ""))]
    let b' := (withRoot "b").operateAll
      [(.bare, .addSection 0 "LOG" none), (.bare, .addAttribute 1 "Level" none)]
    ∃ after after', (Edit.importNode 0 b 1).apply conf = (.ok 2, after) ∧
      (Edit.importNode 0 b' 1).apply conf = (.ok 2, after') ∧
      structurallyEqual after (some root) after' (some root) = true := by
  intro conf b b'
  have reach : conf.Reachable :=
    (Reachable.withRoot "base").operateAll _ (by simp [Operation.others])
  have reach₁ : b.Reachable := (Reachable.withRoot "b").operateAll _ (by simp [Operation.others])
  have reach₂ : b'.Reachable := (Reachable.withRoot "b").operateAll _ (by simp [Operation.others])
  have live : b.live? 1 = some ⟨"log", none, some 0, .lists #[] #[2], true, false⟩ := by
    decide +kernel
  have live' : b'.live? 1 = some ⟨"LOG", none, some 0, .lists #[] #[2], true, false⟩ := by
    decide +kernel
  have same : Alike b b' 1 1 := by
    refine alike_of_entries reach₁.wellFormed reach₂.wellFormed live live' (by decide +kernel) ?_
    rintro (_ | _)
    · exact .nil
    · exact .cons (by decide +kernel) .nil
  have imports := structurallyEqual_congruence.2.2.2.2
  obtain ⟨c, after, after', run, run', alike⟩ := imports conf b b' 0 1 1 reach reach₁ reach₂ rfl
    (by decide +kernel) ⟨_, live⟩ same
  have first : ((Edit.importNode 0 b 1).apply conf).1 = .ok 2 := by decide +kernel
  rw [run] at first
  cases first
  obtain ⟨d, hd, -⟩ := reach.wellFormed.root
  exact ⟨after, after', run, run', alike root d hd⟩

end ConfTree
