import ConfTree.Layer.Variables
import ConfTree.Proofs.Layer.Merging
import ConfTree.Proofs.Tree.Copy
import ConfTree.Proofs.Tree.Settings

/-!
# Layers of variables

A variable stands for a setting if its name starts with the prefix and the separator and no part of
the rest is blank (`StandsFor`, `variablePath?_eq_some`). If no two of them stand for one path, then
each adds its setting to those that are held already (`place_holds`), whatever sections are there.
So the configuration of a list of variables holds exactly their settings, and it has the same
structure for every order of the list (`ofVariables_settings`).
-/

namespace ConfTree.Layer

open ConfTree.Configuration ConfTree.Edit ConfTree.Text

/-! ## Variables that stand for settings -/

/-- The names between separators, trimmed and in lower case. -/
def partNames (separator : String) (rest : List Char) : List String :=
  (splitAt separator.toList rest).map fun part => lowercase (String.ofList (trimChars part))

/-- The name starts as it should, and the rest of it is the path, without a blank part. -/
def StandsFor (start separator name : String) (path : List String × String) : Prop :=
  ∃ rest, name.toList = start.toList ++ (separator.toList ++ rest) ∧
    (∀ part ∈ splitAt separator.toList rest, trimChars part ≠ []) ∧
    path.1 ++ [path.2] = partNames separator rest

/-- The settings that variables stand for, in their order. -/
def settings (start separator : String) (vars : Variables) : List Setting :=
  vars.filterMap fun v => (variablePath? start separator v.1).map fun path => ⟨path, v.2⟩

variable {start separator name : String} {path : List String × String} {vars : Variables}

/-- What follows a beginning is found exactly behind it. -/
lemma afterBeginning?_eq_some {bs cs rest : List Char} :
    afterBeginning? bs cs = some rest ↔ cs = bs ++ rest := by
  induction bs generalizing cs with
  | nil => simp [afterBeginning?]
  | cons b bs ih =>
    cases cs with
    | nil => simp [afterBeginning?]
    | cons c cs =>
      rw [afterBeginning?]
      split
      · rename_i same
        simp [ih, same]
      · rename_i differ
        simp [Ne.symm differ]

/-- Only the empty text is empty in lower case. -/
lemma lowercase_eq_empty {cs : List Char} : lowercase (String.ofList cs) = "" ↔ cs = [] := by
  rw [lowercase, String.toList_ofList, String.ofList_eq_empty_iff, lowerAfter_eq_nil]

/-- A part is named by the empty text exactly if it is blank. -/
lemma any_isEmpty_partNames {rest : List Char} :
    (partNames separator rest).any (·.isEmpty) = false ↔
      ∀ part ∈ splitAt separator.toList rest, trimChars part ≠ [] := by
  simp [partNames, List.any_eq_false, lowercase_eq_empty]

/-- A variable has a path exactly if it stands for a setting. -/
lemma variablePath?_eq_some :
    variablePath? start separator name = some path ↔ StandsFor start separator name path := by
  have begun : ∀ {rest}, afterBeginning? (start ++ separator).toList name.toList = some rest ↔
      name.toList = start.toList ++ (separator.toList ++ rest) := by
    intro rest
    rw [afterBeginning?_eq_some, String.toList_append, List.append_assoc]
  constructor
  · intro h
    obtain ⟨rest, whole, h⟩ := Option.bind_eq_some_iff.1 h
    dsimp only at h
    split at h
    · cases h
    · rename_i solid
      obtain ⟨leaf, last, h⟩ := Option.bind_eq_some_iff.1 h
      cases h
      exact ⟨rest, begun.1 whole, any_isEmpty_partNames.1 (Bool.eq_false_iff.2 solid),
        List.dropLast_append_getLast? leaf last⟩
  · rintro ⟨rest, whole, solid, parts⟩
    have filled := any_isEmpty_partNames.2 solid
    rw [← parts] at filled
    rw [partNames] at parts
    simp only [variablePath?, begun.2 whole, Option.bind_eq_bind, Option.bind_some, ← parts, filled]
    simp

/-- The names of a path are low ones. -/
lemma StandsFor.low (h : StandsFor start separator name path) :
    ∀ n ∈ path.1 ++ [path.2], LowName n := by
  obtain ⟨rest, -, solid, parts⟩ := h
  intro n hn
  rw [parts] at hn
  obtain ⟨part, hpart, rfl⟩ := List.mem_map.1 hn
  exact lowName_lowercase (solid part hpart)

/-- The names of settings are in lower case. -/
lemma low_of_mem_settings {s : Setting} (h : s ∈ settings start separator vars) : s.Low := by
  obtain ⟨v, -, h⟩ := List.mem_filterMap.1 h
  obtain ⟨path, found, rfl⟩ := Option.map_eq_some_iff.1 h
  exact (variablePath?_eq_some.1 found).low

/-! ## Settings that are added -/

variable {conf : Configuration} {held : List Setting} {p : Nat} {names pre : List String}
  {leaf value : String}

/-- Sections on the way to a setting are found or added, and no setting is lost or gained. -/
lemma sectionAt_holds (holds : conf.Holds held) (writable : conf.readOnly = false)
    (furnished : conf.Furnished p) (reached : conf.sectionUnder? root pre = some p)
    (low : ∀ n ∈ names, LowName n) :
    ∃ id conf', (sectionAt p names).apply conf = (.ok id, conf') ∧ conf'.Holds held ∧
      conf'.readOnly = false ∧ conf'.Furnished id ∧
      conf'.sectionUnder? root (pre ++ names) = some id := by
  induction names generalizing conf p pre with
  | nil => exact ⟨p, conf, rfl, holds, writable, furnished, by rwa [List.append_nil]⟩
  | cons n names ih =>
    have wf := holds.wellFormed
    obtain ⟨first, rest⟩ := List.forall_mem_cons.1 low
    obtain ⟨r, hr, rsec, -⟩ := wf.root
    obtain ⟨-, pd, hp, sec⟩ := of_sectionUnder? wf hr rsec reached
    rw [sectionAt, apply_bind_ok apply_get, List.append_cons]
    cases found : conf.child? p n with
    | some id =>
      obtain ⟨qd, d, hq, hid, -⟩ := of_named? (k := .sectionKind) wf found
      refine ih holds writable (furnished.of_entry hq wf hid) ?_ rest
      rw [sectionUnder?_concat, reached]
      exact found
    | none =>
      have fresh : conf.named? .sectionKind p n = none := found
      dsimp only
      rw [addSection, apply_bind_ok (apply_append writable hp sec first.good)]
      refine ih (holds.addSection hp sec first fresh rfl) writable (furnished.addNode hp sec) ?_
        rest
      rw [sectionUnder?_concat, sectionUnder?_addNode hp sec wf reached]
      exact named?_addNode_new hp sec wf first.good fresh

variable (value) in
/-- The attribute of a path without a setting is added. -/
lemma setAttribute_holds (holds : conf.Holds held) (writable : conf.readOnly = false)
    (lows : ∀ s ∈ held, s.Low) (furnished : conf.Furnished p)
    (reached : conf.sectionUnder? root names = some p) (low : ∀ n ∈ names ++ [leaf], LowName n)
    (fresh : (names, leaf) ∉ held.map Setting.path) :
    ∃ conf', (setAttribute p leaf value).apply conf = (.ok (), conf') ∧
      conf'.Holds (held ++ [⟨(names, leaf), value⟩]) ∧ conf'.readOnly = false ∧
      conf'.Furnished root := by
  have wf := holds.wellFormed
  obtain ⟨r, hr, rsec, -⟩ := wf.root
  obtain ⟨-, pd, hp, sec⟩ := of_sectionUnder? wf hr rsec reached
  have lowLeaf : LowName leaf := low leaf (by simp)
  have absent : conf.named? .attributeKind p leaf = none := by
    refine Option.eq_none_iff_forall_not_mem.2 fun x found => fresh ?_
    obtain ⟨-, d, -, -, live, kind, -⟩ := of_named? (k := .attributeKind) wf found
    obtain ⟨s, hs, there⟩ := holds.only x d live kind
    have here : conf.attributeUnder? (names, leaf) = some x := by
      rw [attributeUnder?, reached]
      exact found
    exact List.mem_map.2 ⟨s, hs, attributeUnder?_injective wf (lows s hs) low there here⟩
  refine ⟨conf.addNode .attributeKind p leaf (some value), ?_,
    holds.addAttribute hp sec lowLeaf absent rfl reached, writable,
    (furnished.addNode hp sec).settled (live?_addNode_new hp) (kind_new true _)⟩
  rw [named?] at absent
  rw [setAttribute, apply_bind_ok apply_get, absent]
  dsimp only
  rw [addAttribute, apply_bind_ok (apply_append writable hp sec lowLeaf.good), apply_pure]

/-- Variables add their settings, if no two of all settings have one path. -/
lemma addVariables_holds (holds : conf.Holds held) (writable : conf.readOnly = false)
    (lows : ∀ s ∈ held, s.Low) (furnished : conf.Furnished root)
    (distinct : ((held ++ settings start separator vars).map Setting.path).Nodup) :
    ∃ conf', (addVariables start separator vars).apply conf = (.ok (), conf') ∧
      conf'.Holds (held ++ settings start separator vars) ∧ conf'.Furnished root := by
  induction vars generalizing conf held with
  | nil => exact ⟨conf, rfl, by rwa [settings, List.filterMap_nil, List.append_nil], furnished⟩
  | cons v vars ih =>
    obtain ⟨name, value⟩ := v
    rw [settings, List.filterMap_cons] at distinct ⊢
    rw [addVariables]
    cases stands : variablePath? start separator name with
    | none =>
      rw [stands] at distinct
      exact ih holds writable lows furnished distinct
    | some path =>
      obtain ⟨names, leaf⟩ := path
      rw [stands] at distinct
      dsimp only [Option.map_some] at distinct ⊢
      rw [List.append_cons] at distinct ⊢
      have low := (variablePath?_eq_some.1 stands).low
      have fresh : (names, leaf) ∉ held.map Setting.path := by
        rw [List.map_append, List.map_append] at distinct
        have apart := (List.nodup_append.1 (List.nodup_append.1 distinct).1).2.2
        exact fun old => apart _ old _ (List.mem_singleton_self _) rfl
      obtain ⟨id, conf₁, run₁, holds₁, writable₁, furnished₁, reached⟩ :=
        sectionAt_holds holds writable furnished (sectionUnder?_nil conf root)
          (List.forall_mem_append.1 low).1
      obtain ⟨conf₂, run₂, holds₂, writable₂, furnished₂⟩ :=
        setAttribute_holds value holds₁ writable₁ lows furnished₁ reached low fresh
      obtain ⟨conf', run, rest⟩ := ih holds₂ writable₂
        (List.forall_mem_append.2 ⟨lows, List.forall_mem_singleton.2 low⟩) furnished₂ distinct
      exact ⟨conf', by rw [apply_bind_ok run₁, apply_bind_ok run₂, run], rest⟩

/-- Variables whose settings have different paths make a configuration that holds the settings. -/
lemma ofVariables_holds (distinct : ((settings start separator vars).map Setting.path).Nodup) :
    ∃ conf, ofVariables start separator vars = .ok conf ∧
      conf.Holds (settings start separator vars) ∧ conf.Furnished root ∧
      conf.isModified = false := by
  obtain ⟨conf, run, holds, furnished⟩ := addVariables_holds holds_empty rfl
    (List.forall_mem_nil _) furnished_empty (by rwa [List.nil_append])
  refine ⟨conf.resetModified, ?_, holds.resetModified, furnished.resetModified,
    Blueprint.isModified_resetModified conf⟩
  rw [ofVariables, run]

/-- A name stands for a setting if it starts with the prefix and the separator and has no blank part
behind them. If the settings of variables have different paths, then their configuration can be
made, and holds these settings: each of them is found under the sections of its path, in an
attribute of its own, and there is no other attribute. No section has no attribute below it, but for
the root if there are no settings, and no node counts as modified. The variables in another order
make a configuration of the same structure. -/
theorem ofVariables_settings (start separator : String) (vars : Variables)
    (distinct : ((settings start separator vars).map Setting.path).Nodup) :
    (∀ name path, variablePath? start separator name = some path ↔
      StandsFor start separator name path) ∧
    ∃ conf, ofVariables start separator vars = .ok conf ∧
      conf.Holds (settings start separator vars) ∧
      (∀ s ∈ settings start separator vars, ∀ t ∈ settings start separator vars,
        conf.attributeUnder? s.path = conf.attributeUnder? t.path → s = t) ∧
      (∀ (id : Nat) d, conf.live? id = some d → d.kind = .sectionKind →
        id ≠ root ∨ settings start separator vars ≠ [] →
        ∃ x e, conf.live? x = some e ∧ e.kind = .attributeKind ∧ conf.Below id x) ∧
      conf.isModified = false ∧
      ∀ vars', vars'.Perm vars → ∃ conf', ofVariables start separator vars' = .ok conf' ∧
        structurallyEqual conf (some root) conf' (some root) = true := by
  obtain ⟨conf, made, holds, furnished, unmodified⟩ := ofVariables_holds distinct
  have wf := holds.wellFormed
  have lows : ∀ s ∈ settings start separator vars, s.Low := fun _ hs => low_of_mem_settings hs
  refine ⟨fun _ _ => variablePath?_eq_some, conf, made, holds, ?_, ?_, unmodified, ?_⟩
  · intro s hs t ht same
    obtain ⟨id, found, -⟩ := holds.found s hs
    exact List.inj_on_of_nodup_map distinct hs ht
      (attributeUnder?_injective wf (lows s hs) (lows t ht) found (same ▸ found))
  · intro id d live sec some
    by_cases top : id = root
    · obtain ⟨s, hs⟩ := List.exists_mem_of_ne_nil _ (some.resolve_left (not_not.2 top))
      obtain ⟨x, found, -⟩ := holds.found s hs
      obtain ⟨-, e, -, live', attr, -⟩ := of_attributeUnder? wf found
      exact ⟨x, e, live', attr, top ▸ wf.below_root live'⟩
    · rcases furnished id d live sec top with above | below
      · exact absurd (Nat.le_zero.1 (above.le wf)) top
      · exact below
  · intro vars' perm
    have perm' : (settings start separator vars').Perm (settings start separator vars) :=
      perm.filterMap _
    obtain ⟨conf', made', holds', furnished', -⟩ :=
      ofVariables_holds ((perm'.map Setting.path).nodup_iff.2 distinct)
    exact ⟨conf', made', holds.alike furnished holds' furnished' lows (fun s => perm'.symm.mem_iff)
      (List.forall_mem_nil _) (sectionUnder?_nil conf root) (sectionUnder?_nil conf' root)⟩

/-- Two of the variables share a section, which is also the name of an attribute. One has another
beginning, and one has a blank part. -/
theorem ofVariables_settings_sample :
    let vars : Variables := [("APP__Db__Host", "a"), ("PATH", "b"), ("APP__DB", "c"),
      ("APP__DB__ __X", "d"), ("APP__db__PORT", "")]
    settings "APP" "__" vars =
        [⟨(["db"], "host"), "a"⟩, ⟨([], "db"), "c"⟩, ⟨(["db"], "port"), ""⟩] ∧
      ∃ conf conf', ofVariables "APP" "__" vars = .ok conf ∧
        ofVariables "APP" "__" vars.reverse = .ok conf' ∧
        (∃ id, conf.attributeUnder? (["db"], "host") = some id ∧
          conf.verbatim? id = some "a") ∧ conf.isModified = false ∧
        structurallyEqual conf (some root) conf' (some root) = true := by
  intro vars
  have accepted : settings "APP" "__" vars =
      [⟨(["db"], "host"), "a"⟩, ⟨([], "db"), "c"⟩, ⟨(["db"], "port"), ""⟩] := by
    decide +kernel
  have distinct : ((settings "APP" "__" vars).map Setting.path).Nodup := by
    rw [accepted]
    decide +kernel
  obtain ⟨-, conf, made, holds, -, -, unmodified, orders⟩ :=
    ofVariables_settings "APP" "__" vars distinct
  obtain ⟨conf', made', same⟩ := orders vars.reverse (List.reverse_perm vars)
  have host := holds.found ⟨(["db"], "host"), "a"⟩ (by rw [accepted]; exact List.mem_cons_self)
  exact ⟨accepted, conf, conf', made, made', host, unmodified, same⟩

end ConfTree.Layer
