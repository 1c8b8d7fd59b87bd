import Mathlib.Data.List.Basic
import Mathlib.Data.List.Induction
import Mathlib.Tactic.Lemma

/-!
# Overlays

An overlay lays one list over another. Every member of the lower list is combined with the first
member of the upper list that is `same` as it and not yet taken, and what is left of the upper list
comes last. Both the attributes and the child sections of a section are merged in this way. If
`same` is an equivalence and combining keeps to its classes, then overlays compose
(`overlay_assoc`): within each class the members of the lists are combined in order.
-/

namespace ConfTree

section

variable {α : Type} (same : α → α → Bool) (combine : α → α → α)

/-- The members of the lower list, each combined with its counterpart, and the rest of the upper
list. -/
def overlay : List α → List α → List α
  | [], ys => ys
  | x :: xs, ys =>
    (ys.find? (same x)).elim x (combine x) :: overlay xs (ys.eraseP (same x))

/-- What two lists have first in a class, combined. -/
def pairUp : Option α → Option α → Option α
  | some y, z => some (z.elim y (combine y))
  | none, z => z

/-- Sameness has classes, and combining two members of a class stays in it. -/
structure Classes : Prop where
  symm : ∀ {x y}, same x y = true → same y x = true
  trans : ∀ {x y z}, same x y = true → same y z = true → same x z = true
  keeps : ∀ {x y}, same x y = true → same x (combine x y) = true

end

variable {α : Type} {same : α → α → Bool} {combine : α → α → α}

/-- To lay nothing over a list leaves it. -/
lemma overlay_nil (xs : List α) : overlay same combine xs [] = xs := by
  induction xs with
  | nil => rfl
  | cons x xs ih => rw [overlay, List.find?_nil, List.eraseP_nil, ih, Option.elim_none]

/-- A list lies over itself without a change. -/
lemma overlay_self (refl : ∀ x, same x x = true) (idem : ∀ x, combine x x = x) (xs : List α) :
    overlay same combine xs xs = xs := by
  induction xs with
  | nil => rfl
  | cons x xs ih =>
    rw [overlay, List.find?_cons_of_pos (refl x), List.eraseP_cons_of_pos (refl x), ih,
      Option.elim_some, idem]

/-- If an overlay changes nothing, then what comes first in the upper list changes nothing. -/
lemma overlay_eq_self_of_append {xs ys zs : List α}
    (h : overlay same combine xs (ys ++ zs) = xs) : overlay same combine xs ys = xs := by
  induction xs generalizing ys zs with
  | nil => exact (List.append_eq_nil_iff.1 h).1
  | cons x xs ih =>
    rw [overlay] at h
    obtain ⟨head, tail⟩ := List.cons.inj h
    rw [overlay]
    cases hy : ys.find? (same x) with
    | some y =>
      rw [List.find?_append, hy] at head
      rw [List.eraseP_append_left (List.find?_some hy) _ (List.mem_of_find?_eq_some hy)] at tail
      rw [ih tail]
      exact congrArg (· :: xs) head
    | none =>
      -- The head takes what it takes from the rest of the upper list.
      have whole := List.find?_eq_none.1 hy
      rw [List.eraseP_append_right _ whole] at tail
      rw [List.eraseP_of_forall_not whole, ih tail, Option.elim_none]

/-- The members of an overlay are those of the lists and combinations of them. -/
lemma mem_overlay {xs ys : List α} {z : α} (h : z ∈ overlay same combine xs ys) :
    z ∈ xs ∨ z ∈ ys ∨ ∃ x ∈ xs, ∃ y ∈ ys, same x y = true ∧ z = combine x y := by
  induction xs generalizing ys with
  | nil => exact .inr (.inl h)
  | cons x xs ih =>
    rcases List.mem_cons.1 h with rfl | h
    · cases hy : ys.find? (same x) with
      | none => exact .inl List.mem_cons_self
      | some y =>
        exact .inr (.inr ⟨x, List.mem_cons_self, y, List.mem_of_find?_eq_some hy,
          List.find?_some hy, rfl⟩)
    · rcases ih h with h | h | ⟨x', hx', y, hy, h⟩
      · exact .inl (List.mem_cons_of_mem _ h)
      · exact .inr (.inl (List.mem_of_mem_eraseP h))
      · exact .inr (.inr ⟨x', List.mem_cons_of_mem _ hx', y, List.mem_of_mem_eraseP hy, h⟩)

/-- A member that is met by an earlier one of the upper list, or is of another class, takes nothing
from a new last one. -/
lemma overlay_cons_concat {x y : α} {xs ys : List α}
    (h : ys.find? (same x) ≠ none ∨ same x y = false) :
    overlay same combine (x :: xs) (ys ++ [y]) =
      (ys.find? (same x)).elim x (combine x) ::
        overlay same combine xs (ys.eraseP (same x) ++ [y]) := by
  rw [overlay, List.find?_append]
  cases hf : ys.find? (same x) with
  | some z =>
    rw [Option.some_or, List.eraseP_append_left (List.find?_some hf) _
      (List.mem_of_find?_eq_some hf)]
  | none =>
    have other : same x y = false := h.resolve_left (fun hn => hn hf)
    have whole := List.find?_eq_none.1 hf
    rw [Option.none_or, List.find?_cons_of_neg (by simp [other]), List.find?_nil,
      List.eraseP_append_right _ whole, List.eraseP_cons_of_neg (by simp [other]), List.eraseP_nil,
      List.eraseP_of_forall_not whole]

namespace Classes

variable (classes : Classes same combine) {x y : α} {xs ys zs : List α}

include classes

/-- Members that are the same are so to the same others. -/
lemma same_eq (h : same x y = true) : same x = same y := by
  funext z
  rw [Bool.eq_iff_iff]
  exact ⟨classes.trans (classes.symm h), classes.trans h⟩

/-- The order of the members does not count. -/
lemma comm (x y : α) : same x y = same y x := by
  rw [Bool.eq_iff_iff]
  exact ⟨classes.symm, classes.symm⟩

/-- Nothing belongs to two classes. -/
lemma apart (h : same x y = false) (z : α) : same x z = false ∨ same y z = false := by
  by_contra hn
  simp only [not_or, Bool.not_eq_false] at hn
  have := classes.trans hn.1 (classes.symm hn.2)
  rw [h] at this
  cases this

/-- To take a member of one class is not noticed in another. -/
lemma find?_eraseP (h : same x y = false) :
    (zs.eraseP (same y)).find? (same x) = zs.find? (same x) := by
  induction zs with
  | nil => rfl
  | cons z zs ih =>
    by_cases hz : same y z = true
    · have other := (classes.apart h z).resolve_right (by simp [hz])
      rw [List.eraseP_cons_of_pos hz, List.find?_cons_of_neg (by simp [other])]
    · rw [List.eraseP_cons_of_neg hz, List.find?_cons, List.find?_cons, ih]

/-- The order does not count in which members of two classes are taken. -/
lemma eraseP_comm (h : same x y = false) :
    (zs.eraseP (same x)).eraseP (same y) = (zs.eraseP (same y)).eraseP (same x) :=
  List.eraseP_comm fun z _ => by simpa using classes.apart h z

/-- A member keeps its class when it meets its counterpart. -/
lemma elim_same : same ((ys.find? (same x)).elim x (combine x)) = same x := by
  cases h : ys.find? (same x) with
  | none => rfl
  | some z => exact (classes.same_eq (classes.keeps (List.find?_some h))).symm

/-- An overlay has first in a class what the lists have first in it, and without it the overlay is
that of the lists without it. -/
lemma find?_eraseP_overlay :
    (overlay same combine ys zs).find? (same x) =
        pairUp combine (ys.find? (same x)) (zs.find? (same x)) ∧
      (overlay same combine ys zs).eraseP (same x) =
        overlay same combine (ys.eraseP (same x)) (zs.eraseP (same x)) := by
  induction ys generalizing zs with
  | nil => exact ⟨rfl, rfl⟩
  | cons y ys ih =>
    have head : same x ((zs.find? (same y)).elim y (combine y)) = same x y := by
      rw [classes.comm, classes.elim_same, classes.comm]
    by_cases h : same x y = true
    · -- The combined head is the first of the class.
      rw [overlay, List.find?_cons_of_pos (head.trans h), List.eraseP_cons_of_pos (head.trans h),
        List.find?_cons_of_pos h, List.eraseP_cons_of_pos h, pairUp, classes.same_eq h]
      exact ⟨rfl, rfl⟩
    · -- The head is passed over, and what it takes does not count for the class.
      rw [Bool.not_eq_true] at h
      rw [h] at head
      have h' : same y x = false := by rw [classes.comm, h]
      obtain ⟨first, rest⟩ := @ih (zs.eraseP (same y))
      rw [overlay, List.find?_cons_of_neg (by simp [head]),
        List.eraseP_cons_of_neg (by simp [head]), List.find?_cons_of_neg (by simp [h]),
        List.eraseP_cons_of_neg (by simp [h]), overlay, first, rest, classes.find?_eraseP h,
        classes.find?_eraseP h', classes.eraseP_comm h]
      exact ⟨rfl, rfl⟩

/-- A list with no two members of a class has none left when the first is taken. -/
lemma find?_eraseP_self (h : ys.Pairwise fun a b => same a b = false) :
    (ys.eraseP (same x)).find? (same x) = none := by
  induction ys with
  | nil => rfl
  | cons y ys ih =>
    obtain ⟨first, rest⟩ := List.pairwise_cons.1 h
    by_cases hy : same x y = true
    · rw [List.eraseP_cons_of_pos hy, List.find?_eq_none, classes.same_eq hy]
      intro z hz
      simp [first z hz]
    · rw [List.eraseP_cons_of_neg hy, List.find?_cons_of_neg hy, ih rest]

/-- An overlay has no two members of a class if none of the lists has. -/
lemma pairwise_overlay (hx : xs.Pairwise fun a b => same a b = false)
    (hy : ys.Pairwise fun a b => same a b = false) :
    (overlay same combine xs ys).Pairwise fun a b => same a b = false := by
  induction xs generalizing ys with
  | nil => exact hy
  | cons x xs ih =>
    obtain ⟨first, rest⟩ := List.pairwise_cons.1 hx
    have none : (overlay same combine xs (ys.eraseP (same x))).find? (same x) = none := by
      have gone : xs.find? (same x) = Option.none :=
        List.find?_eq_none.2 fun z hz => by simp [first z hz]
      rw [classes.find?_eraseP_overlay.1, gone, classes.find?_eraseP_self hy, pairUp]
    have apart : ∀ z ∈ overlay same combine xs (ys.eraseP (same x)), same x z = false :=
      fun z hz => Bool.eq_false_iff.2 (List.find?_eq_none.1 none z hz)
    refine List.pairwise_cons.2 ⟨?_, ih rest (hy.eraseP _)⟩
    cases h : ys.find? (same x) with
    | none => exact apart
    | some y =>
      rw [Option.elim_some, ← classes.same_eq (classes.keeps (List.find?_some h))]
      exact apart

/-- Overlays compose. -/
lemma overlay_assoc
    (assoc : ∀ x ∈ xs, ∀ y z, combine (combine x y) z = combine x (combine y z)) :
    overlay same combine (overlay same combine xs ys) zs =
      overlay same combine xs (overlay same combine ys zs) := by
  induction xs generalizing ys zs with
  | nil => rfl
  | cons x xs ih =>
    obtain ⟨first, rest⟩ : (overlay same combine ys zs).find? (same x) = _ ∧ _ :=
      classes.find?_eraseP_overlay
    have tail : overlay same combine (overlay same combine xs (ys.eraseP (same x)))
        (zs.eraseP (same x)) = _ := ih fun x hx => assoc x (List.mem_cons_of_mem _ hx)
    rw [overlay, overlay, overlay, first, rest]
    cases hy : ys.find? (same x) with
    | none =>
      have whole : ys.eraseP (same x) = ys := List.eraseP_of_forall_not (List.find?_eq_none.1 hy)
      rw [whole] at tail ⊢
      exact congrArg _ tail
    | some y =>
      have head := classes.keeps (List.find?_some hy)
      rw [Option.elim_some, ← classes.same_eq head, tail, pairUp, Option.elim_some]
      congr 1
      cases zs.find? (same x) with
      | none => rfl
      | some z => exact assoc x List.mem_cons_self y z

/-! ## One more member on top

A merge takes the members of the upper list one after the other. The lemmas say what one more member
does to an overlay: it is combined with the member of its class that stands as far back as there
were members of the class before it, or it comes last. -/

/-- Taking the first member of a class takes one off its number, and leaves those of the others. -/
lemma countP_eraseP (x y : α) : ys.countP (same · y) =
    (ys.eraseP (same x)).countP (same · y) +
      if (ys.find? (same x)).isSome && same x y then 1 else 0 := by
  obtain h | ⟨z, front, back, hfront, hz, hys, herase⟩ :=
    List.exists_or_eq_self_of_eraseP (same x) ys
  · have none : ys.find? (same x) = none :=
      List.find?_eq_none.2 (List.eraseP_eq_self_iff.1 h)
    rw [h, none]
    rfl
  · have first : ys.find? (same x) = some z := by
      rw [hys, List.find?_append, List.find?_eq_none.2 fun b hb => hfront b hb, Option.none_or,
        List.find?_cons_of_pos hz]
    have alike : same z y = same x y := by rw [classes.same_eq hz]
    rw [herase, first, hys, List.countP_append, List.countP_cons, List.countP_append, alike,
      Option.isSome_some, Bool.true_and, Nat.add_assoc]

/-- There is a first member of a class if there is any. -/
lemma find?_ne_none_iff {y : α} (h : same x y = true) :
    ys.find? (same x) ≠ none ↔ 0 < ys.countP (same · y) := by
  rw [← Option.isSome_iff_ne_none, List.find?_isSome, List.countP_pos_iff]
  constructor
  · rintro ⟨z, hz, hxz⟩
    exact ⟨z, hz, classes.trans (classes.symm hxz) h⟩
  · rintro ⟨z, hz, hzy⟩
    exact ⟨z, hz, classes.trans h (classes.symm hzy)⟩

/-- Where the members of the lower list start to meet a class counts in both lists alike. -/
lemma found_of_countP {y : α} {n : Nat}
    (count : n + (if same x y then 1 else 0) ≤ ys.countP (same · y)) :
    ys.find? (same x) ≠ none ∨ same x y = false := by
  cases h : same x y with
  | false => exact .inr rfl
  | true =>
    rw [h, if_pos rfl] at count
    exact .inl ((classes.find?_ne_none_iff h).2 (by omega))

/-- Taking the first member of a class that is there takes one off its number. -/
lemma countP_eraseP_of_found {y : α} (h : ys.find? (same x) ≠ none ∨ same x y = false) :
    ys.countP (same · y) =
      (ys.eraseP (same x)).countP (same · y) + if same x y then 1 else 0 := by
  rw [classes.countP_eraseP x y]
  congr 1
  cases hxy : same x y with
  | false => simp
  | true =>
    rw [hxy] at h
    have found := Option.isSome_iff_ne_none.2 (h.resolve_right (by simp))
    simp [found]

/-- A new member is combined with the member of its class that has as many of the class before it.
-/
lemma overlay_concat_of_split {y a : α} {pre post : List α}
    (h : overlay same combine xs ys = pre ++ a :: post) (ha : same a y = true)
    (count : pre.countP (same · y) = ys.countP (same · y)) :
    overlay same combine xs (ys ++ [y]) = pre ++ combine a y :: post := by
  induction xs generalizing ys pre with
  | nil =>
    rw [overlay] at h
    rw [h, List.countP_append, List.countP_cons, if_pos ha] at count
    omega
  | cons x xs ih =>
    rw [overlay] at h
    cases pre with
    | nil =>
      -- Nothing of the class came before, so the member is untouched.
      obtain ⟨head, tail⟩ := List.cons.inj h
      have hxy : same x y = true := by
        have : same ((ys.find? (same x)).elim x (combine x)) = same x := classes.elim_same
        rw [← this, head, ha]
      have none : ys.find? (same x) = none := by
        by_contra hn
        have := (classes.find?_ne_none_iff hxy).1 hn
        rw [List.countP_nil] at count
        omega
      have whole := List.find?_eq_none.1 none
      rw [none, Option.elim_none] at head
      rw [List.eraseP_of_forall_not whole] at tail
      rw [overlay, List.find?_append, none, Option.none_or, List.find?_cons_of_pos hxy,
        List.eraseP_append_right _ whole, List.eraseP_cons_of_pos hxy, List.append_nil, tail, head]
      rfl
    | cons b pre =>
      obtain ⟨head, tail⟩ := List.cons.inj h
      have hb : same b y = same x y := by rw [← head, classes.elim_same]
      rw [List.countP_cons, hb] at count
      have found := classes.found_of_countP (Nat.le_of_eq count)
      have rest := classes.countP_eraseP_of_found found
      rw [overlay_cons_concat found, ih tail (by omega), head]
      rfl

/-- A new member comes last if its class has no more members than there were before it. -/
lemma overlay_concat_of_le {y : α}
    (count : (overlay same combine xs ys).countP (same · y) ≤ ys.countP (same · y)) :
    overlay same combine xs (ys ++ [y]) = overlay same combine xs ys ++ [y] := by
  induction xs generalizing ys with
  | nil => rfl
  | cons x xs ih =>
    rw [overlay, List.countP_cons, classes.elim_same] at count
    have found := classes.found_of_countP count
    have rest := classes.countP_eraseP_of_found found
    rw [overlay_cons_concat found, ih (by omega), overlay]
    rfl

end Classes

/-! ## Classes in order

Within each class the members of the lists are combined in order, and what is left of the upper list
are the members that have as many of their class before them as the lower list has in all. -/

/-- A later occurrence is one place earlier without the first one. -/
lemma getElem?_filter_succ (p : α → Bool) (l : List α) (k : Nat) :
    (l.filter p)[k + 1]? = ((l.eraseP p).filter p)[k]? := by
  induction l with
  | nil => rfl
  | cons a l ih =>
    by_cases ha : p a = true
    · rw [List.filter_cons_of_pos ha, List.getElem?_cons_succ, List.eraseP_cons_of_pos ha]
    · rw [List.filter_cons_of_neg ha, List.eraseP_cons_of_neg ha, List.filter_cons_of_neg ha, ih]

/-- The first occurrence is the first one that is found. -/
lemma getElem?_filter_zero (p : α → Bool) (l : List α) : (l.filter p)[0]? = l.find? p := by
  rw [← List.head?_eq_getElem?, List.head?_filter]

/-- The members of a class in an overlay are those of both lists, combined in order. -/
lemma Classes.getElem?_filter_overlay (classes : Classes same combine) (xs ys : List α) (x : α)
    (k : Nat) : ((overlay same combine xs ys).filter (same x))[k]? =
      pairUp combine (xs.filter (same x))[k]? (ys.filter (same x))[k]? := by
  induction k generalizing xs ys with
  | zero => simp only [getElem?_filter_zero, classes.find?_eraseP_overlay.1]
  | succ k ih => simp only [getElem?_filter_succ, classes.find?_eraseP_overlay.2, ih]

/-- The members of the upper list that are left when each member of the lower list has taken the
first one that is the same. -/
def leftOver (same : α → α → Bool) : List α → List α → List α
  | [], ys => ys
  | x :: xs, ys => leftOver same xs (ys.eraseP (same x))

/-- What is left over comes behind what was combined. -/
lemma drop_overlay (xs ys : List α) :
    (overlay same combine xs ys).drop xs.length = leftOver same xs ys := by
  induction xs generalizing ys with
  | nil => rfl
  | cons x xs ih => rw [overlay, leftOver, List.length_cons, List.drop_succ_cons, ih]

/-- A new last member is left over if there are as many of its class before it as in the lower
list. -/
lemma Classes.leftOver_concat (classes : Classes same combine) (xs ys : List α) (y : α) :
    leftOver same xs (ys ++ [y]) = leftOver same xs ys ++
      if xs.countP (same · y) ≤ ys.countP (same · y) then [y] else [] := by
  induction xs generalizing ys with
  | nil => simp [leftOver]
  | cons x xs ih =>
    rw [leftOver, leftOver, List.countP_cons]
    cases found : ys.find? (same x) with
    | some z =>
      -- The member that is taken stands before the new one.
      have taken : ys.find? (same x) ≠ none ∨ same x y = false := by simp [found]
      rw [List.eraseP_append_left (List.find?_some found) _ (List.mem_of_find?_eq_some found), ih,
        classes.countP_eraseP_of_found taken]
      simp only [Nat.add_le_add_iff_right]
    | none =>
      have whole := List.find?_eq_none.1 found
      rw [List.eraseP_append_right _ whole, List.eraseP_of_forall_not whole]
      by_cases alike : same x y = true
      · -- The new member is taken itself.
        have first : ys.countP (same · y) = 0 := by
          by_contra some
          exact (classes.find?_ne_none_iff alike).2 (Nat.pos_of_ne_zero some) found
        rw [List.eraseP_cons_of_pos alike, List.append_nil, if_neg (by simp [first, alike]),
          List.append_nil]
      · rw [List.eraseP_cons_of_neg alike, List.eraseP_nil, ih, if_neg alike, Nat.add_zero]

/-- What is left over are the members whose place within their class is not one of the lower
list. -/
lemma Classes.leftOver_map {β : Type} [DecidableEq β] (classes : Classes same combine)
    (refl : ∀ x, same x x = true) (xs : List α) (f : β → α) {ys : List β} (nodup : ys.Nodup) :
    leftOver same xs (ys.map f) = (ys.filter fun y =>
      xs.countP (same · (f y)) ≤ (ys.filter fun z => same (f z) (f y)).idxOf y).map f := by
  induction ys using List.reverseRecOn with
  | nil =>
    have none : (overlay same combine xs []).drop xs.length = leftOver same xs [] :=
      drop_overlay xs []
    rw [List.map_nil, ← none, overlay_nil, List.drop_length]
    rfl
  | append_singleton ys y ih =>
    obtain ⟨rest, -, apart⟩ := List.nodup_append.1 nodup
    have new : y ∉ ys := fun hy => apart y hy y (List.mem_singleton_self y) rfl
    -- The last member has the last place in its class, and the others keep theirs.
    have last : ((ys ++ [y]).filter fun z => same (f z) (f y)).idxOf y =
        (ys.map f).countP (same · (f y)) := by
      rw [List.filter_append, List.idxOf_append_of_notMem fun hy => new (List.mem_of_mem_filter hy),
        List.filter_cons, if_pos (refl (f y)), List.idxOf_cons_self, List.countP_map,
        List.countP_eq_length_filter]
      rfl
    have places : ∀ z ∈ ys, ((ys ++ [y]).filter fun w => same (f w) (f z)).idxOf z =
        (ys.filter fun w => same (f w) (f z)).idxOf z := by
      intro z hz
      rw [List.filter_append, List.idxOf_append_of_mem (List.mem_filter.2 ⟨hz, refl _⟩)]
    have kept : (ys.filter fun z =>
        xs.countP (same · (f z)) ≤ ((ys ++ [y]).filter fun w => same (f w) (f z)).idxOf z) =
        ys.filter fun z =>
          xs.countP (same · (f z)) ≤ (ys.filter fun w => same (f w) (f z)).idxOf z :=
      List.filter_congr fun z hz => by rw [places z hz]
    rw [List.map_append, List.map_singleton, classes.leftOver_concat, ih rest, List.filter_append,
      List.map_append, kept, List.filter_cons, last]
    split <;> simp_all

end ConfTree
