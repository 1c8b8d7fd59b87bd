import ConfTree.Proofs.Tree.Preservation
import ConfTree.Proofs.Tree.Shape

/-!
# Confined changes

A change of a configuration is `Confined` to a node if it leaves all that does not lie below the
node as it was. Confined changes compose, and one that is confined to an entry of a section changes
this entry in the shape of the section and nothing else (`Confined.shape_child`,
`Confined.shape_attribute`).
-/

namespace ConfTree.Configuration

/-- What was live before and does not lie below `top` is as before. -/
structure Confined (top : Nat) (before after : Configuration) : Prop where
  wellFormed : after.WellFormed
  readOnly : after.readOnly = before.readOnly
  /-- The node itself stays what it is. -/
  kept : ∀ d, before.live? top = some d →
    ∃ e, after.live? top = some e ∧ e.kind = d.kind ∧ e.parent = d.parent
  outside : ∀ (id : Nat) d, before.live? id = some d → ¬ before.Below top id →
    after.live? id = some d

variable {conf conf' : Configuration}

/-- Of two nodes above a node one is above the other. -/
lemma Below.comparable {a b x : Nat} (ha : conf.Below a x) (hb : conf.Below b x) :
    conf.Below a b ∨ conf.Below b a := by
  -- Both chains of parents start at `x`, so they go up together until one ends.
  induction ha with
  | self => exact .inr hb
  | @step id p d live hp h ih =>
    rcases hb.parent live hp with rfl | h'
    · exact .inl (.step live hp h)
    · exact ih h'

/-- A section does not lie below its entry. -/
lemma not_below_of_mem_entries (wf : conf.WellFormed) {p c : Nat} {pd : NodeData} {k : Kind}
    (h : conf.live? p = some pd) (hc : c ∈ pd.entries k) : ¬ conf.Below c p := by
  intro hb
  have := hb.le wf
  have := wf.lt_of_mem_entries h hc
  omega

/-- What lies below an entry lies below no other entry. -/
lemma not_below_of_ne (wf : conf.WellFormed) {p c x y : Nat} {pd : NodeData} {k l : Kind}
    (h : conf.live? p = some pd) (hc : c ∈ pd.entries k) (hx : x ∈ pd.entries l) (hne : x ≠ c)
    (hb : conf.Below x y) : ¬ conf.Below c y := by
  -- Of two entries of one section neither lies below the other.
  have apart : ∀ {a b : Nat} {j m : Kind}, a ∈ pd.entries j → b ∈ pd.entries m → a ≠ b →
      ¬ conf.Below a b := by
    intro a b j m ha hb hne hab
    obtain ⟨d, live, -, hp⟩ := wf.listed p pd m b h hb
    rcases hab.parent live hp with rfl | hap
    · exact hne rfl
    · exact not_below_of_mem_entries wf h ha hap
  intro hcy
  rcases hb.comparable hcy with hxc | hcx
  · exact apart hx hc hne hxc
  · exact apart hc hx (Ne.symm hne) hcx

namespace Confined

variable {top : Nat}

/-- Nothing changes anywhere if nothing is done. -/
lemma refl (wf : conf.WellFormed) : Confined top conf conf :=
  ⟨wf, rfl, fun d h => ⟨d, h, rfl, rfl⟩, fun _ _ h _ => h⟩

/-- What is confined to a node twice is confined to it. -/
lemma trans {a b c : Configuration} (wf : a.WellFormed) (h : Confined top a b)
    (k : Confined top b c) : Confined top a c := by
  -- An old node outside is outside later, since its parents are the same.
  have outside : ∀ {id : Nat}, b.Below top id → ∀ d, a.live? id = some d → a.Below top id := by
    intro id hb
    induction hb with
    | self => exact fun _ _ => .self
    | @step id p e live hp _ ih =>
      intro d hd
      by_contra hn
      have same := h.outside id d hd hn
      rw [live] at same
      cases same
      obtain ⟨-, pd, hpd, -⟩ := wf.parent hd hp
      exact hn (.step hd hp (ih pd hpd))
  refine ⟨k.wellFormed, k.readOnly.trans h.readOnly, fun d hd => ?_, fun id d hd hn => ?_⟩
  · obtain ⟨e, he, kind, parent⟩ := h.kept d hd
    obtain ⟨f, hf, kind', parent'⟩ := k.kept e he
    exact ⟨f, hf, kind'.trans kind, parent'.trans parent⟩
  · exact k.outside id d (h.outside id d hd hn) fun hb => hn (outside hb d hd)

/-- A change that is confined to a node is confined to all above it. -/
lemma above (wf : conf.WellFormed) {p : Nat} (h : Confined top conf conf')
    (hp : conf.Below p top) : Confined p conf conf' := by
  refine ⟨h.wellFormed, h.readOnly, fun d hd => ?_, fun id d hd hn => ?_⟩
  · by_cases hb : conf.Below top p
    · -- Nodes that lie below each other are one node.
      have eq : p = top := Nat.le_antisymm (hp.le wf) (hb.le wf)
      subst eq
      exact h.kept d hd
    · exact ⟨d, h.outside p d hd hb, rfl, rfl⟩
  · exact h.outside id d hd fun hb => hn (hp.trans hb)

section

variable {p c : Nat} {pd : NodeData} {k : Kind} (wf : conf.WellFormed) (h : Confined c conf conf')
  (hp : conf.live? p = some pd) (hc : c ∈ pd.entries k)

include wf h hp hc

/-- A change of an entry leaves the section itself. -/
lemma live_parent : conf'.live? p = some pd :=
  h.outside p pd hp (not_below_of_mem_entries wf hp hc)

/-- A change of an entry leaves the views of all below another entry. -/
lemma view_of_ne {x y : Nat} {l : Kind} (hx : x ∈ pd.entries l) (hne : x ≠ c)
    (hb : conf.Below x y) : conf'.view y = conf.view y := by
  obtain ⟨d, live, -⟩ := wf.listed p pd l x hp hx
  obtain ⟨e, he⟩ := hb.live live
  rw [view, view, he, h.outside y e he (not_below_of_ne wf hp hc hx hne hb)]

/-- A change of an entry leaves the shape of another entry. -/
lemma shape_of_ne {x : Nat} {l : Kind} (hx : x ∈ pd.entries l) (hne : x ≠ c) :
    conf'.shape x = conf.shape x := by
  obtain ⟨d, live, -⟩ := wf.listed p pd l x hp hx
  exact shape_congr wf h.wellFormed live fun y hy => h.view_of_ne wf hp hc hx hne hy

/-- A change of an entry leaves the looks of another entry. -/
lemma pairOf_of_ne {x : Nat} {l : Kind} (hx : x ∈ pd.entries l) (hne : x ≠ c) :
    conf'.pairOf x = conf.pairOf x :=
  pairOf_congr (h.view_of_ne wf hp hc hx hne .self)

end

/-- Functions that differ at one member of a list only give lists that differ at its place. -/
lemma map_of_ne {α : Type} {f g : NodeId → α} {c : NodeId} {pre post : List NodeId}
    (nodup : (pre ++ c :: post).Nodup) (h : ∀ x ∈ pre ++ c :: post, x ≠ c → f x = g x) :
    (pre ++ c :: post).map f = pre.map g ++ f c :: post.map g := by
  rw [List.nodup_middle, List.nodup_cons, List.mem_append, not_or] at nodup
  rw [List.map_append, List.map_cons]
  congr 1
  · refine List.map_congr_left fun x hx => h x (List.mem_append_left _ hx) ?_
    rintro rfl
    exact nodup.1.1 hx
  · congr 1
    refine List.map_congr_left fun x hx => h x (by simp [hx]) ?_
    rintro rfl
    exact nodup.1.2 hx

/-- A change of a child section is seen at its place in the shape of its parent. -/
lemma shape_child (wf : conf.WellFormed) {p c : Nat} {pd : NodeData} {pre post : List NodeId}
    (h : Confined c conf conf') (hp : conf.live? p = some pd)
    (hc : pd.entries .sectionKind = pre ++ c :: post) :
    conf'.shape p = .mk pd.name pd.value ((pd.entries .attributeKind).map conf.pairOf)
      (pre.map conf.shape ++ conf'.shape c :: post.map conf.shape) := by
  have hm : c ∈ pd.entries .sectionKind := by simp [hc]
  rw [shape_eq h.wellFormed (h.live_parent wf hp hm)]
  congr 1
  · refine List.map_congr_left fun x hx => h.pairOf_of_ne wf hp hm hx ?_
    rintro rfl
    cases (wf.entries_unique hp hx hp hm).2
  · rw [hc]
    refine map_of_ne (hc ▸ wf.nodup_entries hp .sectionKind) fun x hx hne => ?_
    exact h.shape_of_ne wf hp hm (hc ▸ hx) hne

/-- A change of an attribute is seen at its place in the shape of its parent. -/
lemma shape_attribute (wf : conf.WellFormed) {p c : Nat} {pd : NodeData} {pre post : List NodeId}
    (h : Confined c conf conf') (hp : conf.live? p = some pd)
    (hc : pd.entries .attributeKind = pre ++ c :: post) :
    conf'.shape p = .mk pd.name pd.value
      (pre.map conf.pairOf ++ conf'.pairOf c :: post.map conf.pairOf)
      ((pd.entries .sectionKind).map conf.shape) := by
  have hm : c ∈ pd.entries .attributeKind := by simp [hc]
  rw [shape_eq h.wellFormed (h.live_parent wf hp hm)]
  congr 1
  · rw [hc]
    refine map_of_ne (hc ▸ wf.nodup_entries hp .attributeKind) fun x hx hne => ?_
    exact h.pairOf_of_ne wf hp hm (hc ▸ hx) hne
  · refine List.map_congr_left fun x hx => h.shape_of_ne wf hp hm hx ?_
    rintro rfl
    cases (wf.entries_unique hp hx hp hm).2

end Confined

end ConfTree.Configuration
