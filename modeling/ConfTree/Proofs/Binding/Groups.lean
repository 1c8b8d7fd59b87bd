import ConfTree.Binding
import ConfTree.Proofs.Text.Lowercase
import Mathlib.Data.List.Forall2
import Mathlib.Data.List.Induction

/-!
# Groups of entries

Entries whose names differ in the case of ASCII letters only are one class. A table is filled entry
by entry, and every class ends up under one key that no other class has: an entry alone with its
value, and several entries with the array of their values (`groups_foldl_addEntry`).
-/

namespace ConfTree.Binding

open Text

variable {names : List String} {a b : String}

/-! ## Keys -/

/-- The key of a name is the name, but for the case of ASCII letters. -/
lemma sameName_groupKey (names : List String) (a : String) :
    sameName (groupKey names a) a = true := by
  rw [groupKey]
  split
  · exact sameName_refl a
  · exact sameName_fold a

/-- Different classes have different keys. -/
lemma sameName_of_groupKey_eq (h : groupKey names a = groupKey names b) : sameName a b = true :=
  sameName_trans (sameName_symm (sameName_groupKey names a)) (h ▸ sameName_groupKey names b)

/-- The names of a class have one key. -/
lemma groupKey_congr (ha : a ∈ names) (hb : b ∈ names) (same : sameName a b = true) :
    groupKey names a = groupKey names b := by
  have group : groupOf names a = groupOf names b := by
    simp only [groupOf, sameName_congr_right same]
  have left : a ∈ groupOf names b := List.mem_filter.2 ⟨ha, same⟩
  have right : b ∈ groupOf names b := List.mem_filter.2 ⟨hb, sameName_refl b⟩
  rw [groupKey, groupKey, group, fold_eq_iff.2 same]
  by_cases one : a = b
  · rw [one]
  · -- Neither name is spelled like all of the class.
    have notFirst : ¬ (groupOf names b).all (· == a) = true := fun all =>
      one (beq_iff_eq.1 (List.all_eq_true.1 all b right)).symm
    have notSecond : ¬ (groupOf names b).all (· == b) = true := fun all =>
      one (beq_iff_eq.1 (List.all_eq_true.1 all a left))
    rw [if_neg notFirst, if_neg notSecond]

/-! ## Fields -/

variable {key : String} {item : TypedValue} {items : List TypedValue}
  {fields : List (String × TypedValue)}

/-- A key that is new comes last. -/
lemma putValue_of_notMem (new : key ∉ fields.map Prod.fst) :
    putValue key item fields = fields ++ [(key, item)] := by
  induction fields with
  | nil => rfl
  | cons f fields ih =>
    rw [List.map_cons, List.mem_cons, not_or] at new
    rw [putValue, if_neg (Ne.symm new.1), ih new.2, List.cons_append]

/-- An item passes a field with another key. -/
lemma appendItem_cons_of_ne {f : String × TypedValue} (other : f.1 ≠ key) :
    appendItem key item (f :: fields) = f :: appendItem key item fields := if_neg other

/-- An array under a key that is new comes last. -/
lemma appendItem_of_notMem (new : key ∉ fields.map Prod.fst) :
    appendItem key item fields = fields ++ [(key, .array [item])] := by
  induction fields with
  | nil => rfl
  | cons f fields ih =>
    rw [List.map_cons, List.mem_cons, not_or] at new
    rw [appendItem_cons_of_ne (Ne.symm new.1), ih new.2, List.cons_append]

/-- An array that is there grows, and all other fields stay. -/
lemma appendItem_of_mem (keys : (fields.map Prod.fst).Nodup) (h : (key, .array items) ∈ fields) :
    appendItem key item fields =
      fields.map fun f => if f.1 = key then (key, .array (items ++ [item])) else f := by
  induction fields with
  | nil => cases h
  | cons f fields ih =>
    rw [List.map_cons, List.nodup_cons] at keys
    rcases List.mem_cons.1 h with rfl | h
    · -- The keys behind this one are others.
      have others : fields.map (fun f => if f.1 = key then (key, .array (items ++ [item])) else f) =
          fields := by
        refine (List.map_congr_left fun g hg => if_neg fun eq => keys.1 ?_).trans (List.map_id _)
        show key ∈ fields.map Prod.fst
        exact eq ▸ List.mem_map_of_mem (f := Prod.fst) hg
      rw [List.map_cons, if_pos rfl, others]
      exact if_pos rfl
    · have other : f.1 ≠ key := fun eq => keys.1 (eq ▸ List.mem_map_of_mem h)
      rw [appendItem_cons_of_ne other, List.map_cons, if_neg other, ih keys.2 h]

/-! ## Classes of entries -/

variable {α : Type} (name : α → String) (value : α → TypedValue)

/-- The entries that are named like an entry. -/
def classOf (entries : List α) (e : α) : List α :=
  entries.filter fun x => sameName (name x) (name e)

/-- The first entries of their classes, in order. -/
def firsts (entries : List α) : List α :=
  entries.eraseDupsBy fun x y => sameName (name x) (name y)

variable {name} {entries pre : List α} {e x : α}

/-- A last member is dropped exactly if a member that was kept relates to it. -/
lemma eraseDupsBy_loop_concat (r : α → α → Bool) (x : α) (xs seen : List α) :
    List.eraseDupsBy.loop r (xs ++ [x]) seen =
      if (List.eraseDupsBy.loop r xs seen).any (r x) then List.eraseDupsBy.loop r xs seen
      else List.eraseDupsBy.loop r xs seen ++ [x] := by
  induction xs generalizing seen with
  | nil => cases found : seen.any (r x) <;> simp [List.eraseDupsBy.loop, found]
  | cons y xs ih =>
    rw [List.cons_append, List.eraseDupsBy.loop, List.eraseDupsBy.loop]
    cases seen.any (r y) with
    | true => exact ih seen
    | false => exact ih (y :: seen)

/-- One more entry is a first one if there is none of its name before it. -/
lemma firsts_concat (pre : List α) (x : α) : firsts name (pre ++ [x]) =
    if (firsts name pre).any (fun e => sameName (name x) (name e)) then firsts name pre
    else firsts name pre ++ [x] :=
  eraseDupsBy_loop_concat _ x pre []

/-- A last entry joins the class of its name, and no other. -/
lemma classOf_concat (pre : List α) (x e : α) : classOf name (pre ++ [x]) e =
    if sameName (name x) (name e) then classOf name pre e ++ [x] else classOf name pre e := by
  rw [classOf, List.filter_append, List.filter_singleton]
  cases sameName (name x) (name e) with
  | true => rfl
  | false => exact List.append_nil _

/-- Entries with the same name have the same class. -/
lemma classOf_congr (same : sameName (name x) (name e) = true) :
    classOf name entries x = classOf name entries e := by
  simp only [classOf, sameName_congr_right same]

/-- The first entries of the classes are entries. -/
lemma mem_of_mem_firsts (h : e ∈ firsts name entries) : e ∈ entries := by
  induction entries using List.reverseRecOn with
  | nil => cases h
  | append_singleton pre x ih =>
    rw [firsts_concat] at h
    split at h
    · exact List.mem_append_left _ (ih h)
    · rcases List.mem_append.1 h with h | h
      · exact List.mem_append_left _ (ih h)
      · exact List.mem_append_right _ h

/-- Every entry has a first one of its class. -/
lemma exists_first (h : x ∈ entries) :
    ∃ e ∈ firsts name entries, sameName (name x) (name e) = true := by
  induction entries using List.reverseRecOn with
  | nil => cases h
  | append_singleton pre y ih =>
    rw [firsts_concat]
    split
    case isTrue found =>
      rcases List.mem_append.1 h with h | h
      · exact ih h
      · rw [List.mem_singleton.1 h]
        exact List.any_eq_true.1 found
    case isFalse =>
      rcases List.mem_append.1 h with h | h
      · obtain ⟨e, he, same⟩ := ih h
        exact ⟨e, List.mem_append_left _ he, same⟩
      · exact ⟨x, List.mem_append_right _ h, sameName_refl _⟩

/-- An entry without a first one of its class is alone. -/
lemma classOf_eq_nil (new : (firsts name pre).any (fun e => sameName (name x) (name e)) = false) :
    classOf name pre x = [] := by
  refine List.filter_eq_nil_iff.2 fun y hy same => ?_
  obtain ⟨e, he, same'⟩ : ∃ e ∈ firsts name pre, sameName (name y) (name e) = true :=
    exists_first hy
  exact List.any_eq_false.1 new e he (sameName_trans (sameName_symm same) same')

/-- No class has two first entries. -/
lemma pairwise_firsts (entries : List α) :
    (firsts name entries).Pairwise fun x y => ¬ sameName (name x) (name y) = true := by
  induction entries using List.reverseRecOn with
  | nil => exact .nil
  | append_singleton pre x ih =>
    rw [firsts_concat]
    split
    case isTrue => exact ih
    case isFalse new =>
      refine List.pairwise_append.2 ⟨ih, List.pairwise_singleton _ _, fun e he y hy same => ?_⟩
      rw [List.mem_singleton.1 hy] at same
      exact new (List.any_eq_true.2 ⟨e, he, sameName_symm same⟩)

/-- A first entry comes first in its class. -/
lemma head?_classOf (h : e ∈ firsts name entries) : (classOf name entries e).head? = some e := by
  induction entries using List.reverseRecOn with
  | nil => cases h
  | append_singleton pre x ih =>
    have old (he : e ∈ firsts name pre) : (classOf name (pre ++ [x]) e).head? = some e := by
      rw [classOf_concat]
      split
      · rw [List.head?_append, ih he, Option.some_or]
      · exact ih he
    rw [firsts_concat] at h
    split at h
    case isTrue => exact old h
    case isFalse new =>
      rcases List.mem_append.1 h with h | h
      · exact old h
      · rw [List.mem_singleton.1 h, classOf_concat, if_pos (sameName_refl _),
          classOf_eq_nil (Bool.eq_false_iff.2 new)]
        rfl

/-! ## Tables -/

/-- A class has as many entries as its name has occurrences. -/
lemma length_groupOf (entries : List α) (e : α) :
    (groupOf (entries.map name) (name e)).length = (classOf name entries e).length := by
  rw [groupOf, List.filter_map, List.length_map]
  rfl

variable (name) in
/-- What a table of the entries has for the class of `e` after those of `pre`. -/
def fieldAfter (entries pre : List α) (e : α) : String × TypedValue :=
  (groupKey (entries.map name) (name e),
    if 1 < (classOf name entries e).length then .array ((classOf name pre e).map value)
    else value e)

/-- The key of a field is that of the group of its entry. -/
lemma fst_fieldAfter : (fieldAfter name value entries pre e).1 =
    groupKey (entries.map name) (name e) := rfl

/-- The keys of different classes are different. -/
lemma nodup_fieldAfter (entries pre rest : List α) :
    (((firsts name pre).map (fieldAfter name value entries rest)).map Prod.fst).Nodup := by
  rw [List.map_map, List.Nodup, List.pairwise_map]
  exact (pairwise_firsts pre).imp fun apart eq => apart (sameName_of_groupKey_eq eq)

/-- A class of several entries has one field, whichever entry it is asked for. -/
lemma fieldAfter_congr (hx : name x ∈ entries.map name) (he : name e ∈ entries.map name)
    (same : sameName (name x) (name e) = true) (several : 1 < (classOf name entries x).length) :
    fieldAfter name value entries pre x = fieldAfter name value entries pre e := by
  rw [fieldAfter, fieldAfter, groupKey_congr hx he same, if_pos several, ← classOf_congr same,
    if_pos several, ← classOf_congr same]

/-- An entry with one of its class before it is not alone. -/
lemma one_lt_length_classOf (within : pre ++ [x] <+: entries) (he : e ∈ firsts name pre)
    (same : sameName (name x) (name e) = true) : 1 < (classOf name entries x).length := by
  have before : 0 < (classOf name pre x).length := by
    rw [classOf_congr same]
    exact List.length_pos_of_mem (List.mem_of_mem_head? (head?_classOf he))
  have more : (classOf name (pre ++ [x]) x).length ≤ (classOf name entries x).length :=
    (within.sublist.filter _).length_le
  rw [classOf_concat, if_pos (sameName_refl _), List.length_append, List.length_singleton] at more
  omega

/-- One more entry of a class that has a field goes behind the others of the class. -/
lemma addEntry_found (within : pre ++ [x] <+: entries) (he : e ∈ firsts name pre)
    (same : sameName (name x) (name e) = true) :
    addEntry (entries.map name) ((firsts name pre).map (fieldAfter name value entries pre))
        (name x) (value x) =
      (firsts name pre).map (fieldAfter name value entries (pre ++ [x])) := by
  have hx : name x ∈ entries.map name := List.mem_map_of_mem (within.subset (by simp))
  have first {y : α} (hy : y ∈ firsts name pre) : name y ∈ entries.map name :=
    List.mem_map_of_mem (within.subset (List.mem_append_left _ (mem_of_mem_firsts hy)))
  have several := one_lt_length_classOf within he same
  have field (rest : List α) : fieldAfter name value entries rest x =
      (groupKey (entries.map name) (name x), .array ((classOf name rest x).map value)) := by
    rw [fieldAfter, if_pos several]
  have array : (groupKey (entries.map name) (name x), .array ((classOf name pre x).map value)) ∈
      (firsts name pre).map (fieldAfter name value entries pre) := by
    rw [← field]
    exact List.mem_map.2 ⟨e, he, (fieldAfter_congr value hx (first he) same several).symm⟩
  rw [addEntry]
  simp only [length_groupOf, if_pos several]
  rw [appendItem_of_mem (nodup_fieldAfter value entries pre pre) array, List.map_map]
  refine List.map_congr_left fun y hy => ?_
  rw [Function.comp_apply, fst_fieldAfter]
  split
  case isTrue eq =>
    have same' : sameName (name x) (name y) = true := sameName_symm (sameName_of_groupKey_eq eq)
    rw [← fieldAfter_congr value hx (first hy) same' several, field, classOf_concat,
      if_pos (sameName_refl _), List.map_append, List.map_singleton]
  case isFalse ne =>
    have other : ¬ sameName (name x) (name y) = true := fun same' =>
      ne (groupKey_congr (first hy) hx (sameName_symm same'))
    rw [fieldAfter, fieldAfter, classOf_concat, if_neg other]

/-- The first entry of a class adds a field. -/
lemma addEntry_new (new : (firsts name pre).any (fun e => sameName (name x) (name e)) = false) :
    addEntry (entries.map name) ((firsts name pre).map (fieldAfter name value entries pre))
        (name x) (value x) =
      (firsts name pre ++ [x]).map (fieldAfter name value entries (pre ++ [x])) := by
  have key : groupKey (entries.map name) (name x) ∉
      ((firsts name pre).map (fieldAfter name value entries pre)).map Prod.fst := by
    rw [List.map_map]
    intro h
    obtain ⟨y, hy, eq⟩ := List.mem_map.1 h
    exact List.any_eq_false.1 new y hy (sameName_symm (sameName_of_groupKey_eq eq))
  have others : (firsts name pre).map (fieldAfter name value entries (pre ++ [x])) =
      (firsts name pre).map (fieldAfter name value entries pre) := by
    refine List.map_congr_left fun y hy => ?_
    rw [fieldAfter, fieldAfter, classOf_concat, if_neg (List.any_eq_false.1 new y hy)]
  have alone : classOf name (pre ++ [x]) x = [x] := by
    rw [classOf_concat, if_pos (sameName_refl _), classOf_eq_nil new, List.nil_append]
  rw [List.map_append, others, List.map_singleton, fieldAfter, alone, List.map_singleton, addEntry]
  simp only [length_groupOf]
  split
  · exact appendItem_of_notMem key
  · exact putValue_of_notMem key

/-- After some of the entries, the table has a field for each of their classes. -/
lemma foldl_addEntry (within : pre <+: entries) :
    pre.foldl (fun fields x => addEntry (entries.map name) fields (name x) (value x)) [] =
      (firsts name pre).map (fieldAfter name value entries pre) := by
  induction pre using List.reverseRecOn with
  | nil => rfl
  | append_singleton pre x ih =>
    rw [List.foldl_concat, ih ((List.prefix_append _ _).trans within), firsts_concat]
    split
    case isTrue found =>
      obtain ⟨e, he, same⟩ := List.any_eq_true.1 found
      exact addEntry_found value within he same
    case isFalse new => exact addEntry_new value (Bool.eq_false_iff.2 new)

variable (name) in
/-- What a table has for the class of its first entry. -/
structure FieldOf (entries : List α) (e : α) (field : String × TypedValue) : Prop where
  /-- The entry comes first in its class. -/
  first : (classOf name entries e).head? = some e
  common : (∀ x ∈ classOf name entries e, name x = name e) → field.1 = name e
  mixed : (∃ x ∈ classOf name entries e, name x ≠ name e) → field.1 = fold (name e)
  alone : classOf name entries e = [e] → field.2 = value e
  several : 1 < (classOf name entries e).length →
    field.2 = .array ((classOf name entries e).map value)

variable (name) in
/-- A table has the entries of each class under one key. -/
structure Groups (entries : List α) (fields : List (String × TypedValue)) : Prop where
  /-- There is a field for each first entry, in the order of these entries. -/
  classes : List.Forall₂ (FieldOf name value entries) (firsts name entries) fields
  /-- No key is there twice. -/
  keys : (fields.map Prod.fst).Nodup
  /-- Every entry is in the class of one of the first entries. -/
  complete : ∀ x ∈ entries, ∃ e ∈ firsts name entries, sameName (name x) (name e) = true
  /-- No two of the first entries are in one class. -/
  apart : (firsts name entries).Pairwise fun x y => ¬ sameName (name x) (name y) = true

/-- What a table has for a class in the end. -/
lemma fieldOf_fieldAfter (h : e ∈ firsts name entries) :
    FieldOf name value entries e (fieldAfter name value entries entries e) where
  first := head?_classOf h
  common all := by
    rw [fst_fieldAfter, groupKey, if_pos]
    refine List.all_eq_true.2 fun n hn => ?_
    rw [groupOf, List.filter_map] at hn
    obtain ⟨x, hx, rfl⟩ := List.mem_map.1 hn
    exact beq_iff_eq.2 (all x hx)
  mixed some := by
    obtain ⟨x, hx, ne⟩ := some
    rw [fst_fieldAfter, groupKey, if_neg]
    intro all
    refine ne (beq_iff_eq.1 (List.all_eq_true.1 all (name x) ?_))
    rw [groupOf, List.filter_map]
    exact List.mem_map_of_mem hx
  alone one := by
    rw [fieldAfter, one]
    rfl
  several more := by rw [fieldAfter, if_pos more]

/-- Filling a table with entries one after the other puts each class under one key. -/
lemma groups_foldl_addEntry (entries : List α) : Groups name value entries
    (entries.foldl (fun fields x => addEntry (entries.map name) fields (name x) (value x)) []) := by
  rw [foldl_addEntry value (List.prefix_refl entries)]
  refine ⟨?_, nodup_fieldAfter value entries entries entries, fun x => exists_first,
    pairwise_firsts entries⟩
  exact List.forall₂_map_right_iff.2 (List.forall₂_same.2 fun e => fieldOf_fieldAfter value)

end ConfTree.Binding
