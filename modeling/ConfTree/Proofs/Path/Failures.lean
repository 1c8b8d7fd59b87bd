import ConfTree.Proofs.Evaluation.Inherited
import ConfTree.Proofs.Evaluation.Outcome
import ConfTree.Proofs.Operation.Reachable
import ConfTree.Proofs.Path.Cutting

/-!
# How navigation ends

Navigation evaluates the attributes that selectors look at, one after the other. `Eval.Ensures` says
how a step can end from a given stack, and `Steady` that what came before an evaluation can stop it
by the limit of substitutions only. So a path that requires no node leads to a node or to none,
unless an alternative of the path is malformed or a selector in it looks at an attribute that cannot
be evaluated (`navigate_ends`).
-/

namespace ConfTree

open ConfTree.Configuration

/-! ## What a step ensures -/

namespace Eval

variable {α β : Type} {stack : List NodeId} {good : α → Prop} {bad : ConfigError → Prop}

/-- From every state with the given stack, the step ends with this stack again, and in a good result
or a bad error. -/
def Ensures (stack : List NodeId) (good : α → Prop) (bad : ConfigError → Prop) (step : Eval α) :
    Prop :=
  ∀ s, s.stack = stack → (step.apply s).2.stack = stack ∧
    (∀ a, (step.apply s).1 = .ok a → good a) ∧ ∀ e, (step.apply s).1 = .error e → bad e

namespace Ensures

/-- A result ends well if it is good. -/
lemma pure {a : α} (h : good a) : Ensures stack good bad (Pure.pure a : Eval α) := by
  intro s hs
  exact ⟨hs, fun b e => by cases e; exact h, nofun⟩

/-- An error ends as it should if it is bad. -/
lemma throw {e : ConfigError} (h : bad e) :
    Ensures stack good bad (MonadExcept.throw e : Eval α) := by
  intro s hs
  exact ⟨hs, nofun, fun e' eq => by cases eq; exact h⟩

/-- What is ensured may be said with less detail. -/
lemma mono {good' : α → Prop} {bad' : ConfigError → Prop} {step : Eval α}
    (h : Ensures stack good bad step) (hgood : ∀ a, good a → good' a)
    (hbad : ∀ e, bad e → bad' e) : Ensures stack good' bad' step := by
  intro s hs
  obtain ⟨restored, results, errors⟩ := h s hs
  exact ⟨restored, fun a e => hgood a (results a e), fun e eq => hbad e (errors e eq)⟩

/-- What the first step ensures is enough for the next one. -/
lemma bind {P : β → Prop} {x : Eval β} {f : β → Eval α} (first : Ensures stack P bad x)
    (rest : ∀ b, P b → Ensures stack good bad (f b)) : Ensures stack good bad (x >>= f) := by
  intro s hs
  obtain ⟨restored, results, errors⟩ := first s hs
  rw [apply_bind]
  revert restored results errors
  rcases x.apply s with ⟨e | b, s'⟩
  · exact fun restored _ errors => ⟨restored, nofun, fun e' eq => by cases eq; exact errors e rfl⟩
  · exact fun restored results _ => rest b (results b rfl) s' restored

end Ensures

end Eval

open Eval

/-! ## Following a path -/

namespace Path

variable {conf : Configuration} {stack : List NodeId} {valueOf : ValueOf Eval}
  {good : NodeId → Option String → Prop} {bad : NodeId → ConfigError → Prop}

/-- A selector that goes through the sections looks at an attribute of the section. Those in front
have no attribute of this name, or one with another value. -/
inductive Looks (conf : Configuration) (good : NodeId → Option String → Prop)
    (key wanted : String) : List NodeId → NodeId → NodeId → Prop where
  | here {id ids found} :
    keyAttribute? conf id key = some found →
    Looks conf good key wanted (id :: ids) id found
  | without {id ids later found} :
    keyAttribute? conf id key = none →
    Looks conf good key wanted ids later found →
    Looks conf good key wanted (id :: ids) later found
  | unlike {id ids own actual later found} :
    keyAttribute? conf id key = some own →
    good own actual →
    actual.getD "" ≠ wanted →
    Looks conf good key wanted ids later found →
    Looks conf good key wanted (id :: ids) later found

/-- The step with the segment leads from the first node to the second. -/
inductive Leads (conf : Configuration) (good : NodeId → Option String → Prop) (id : NodeId) :
    Segment → NodeId → Prop where
  | current {d} :
    conf.live? id = some d →
    Leads conf good id .current id
  | parent {d p} :
    conf.live? id = some d →
    d.parent = some p →
    Leads conf good id .parent p
  | attributeNamed {name a} :
    keyAttribute? conf id name = some a →
    Leads conf good id (.attributeNamed name) a
  | attributeAt {n a} :
    (conf.attributesOf id)[n]? = some a →
    Leads conf good id (.attributeAt n) a
  | first {name c} :
    (candidates conf id name).head? = some c →
    Leads conf good id (.child name none) c
  | index {name n c} :
    (candidates conf id name)[n]? = some c →
    Leads conf good id (.child name (some (.index n))) c
  | matching {name key wanted c found actual} :
    Looks conf good key wanted (candidates conf id name) c found →
    good found actual →
    actual.getD "" = wanted →
    Leads conf good id (.child name (some (.matching key wanted))) c

/-- The error is one of an attribute that the step with the segment looks at. -/
inductive Segment.Fails (conf : Configuration) (good : NodeId → Option String → Prop)
    (bad : NodeId → ConfigError → Prop) (id : NodeId) : Segment → ConfigError → Prop where
  | selector {name key wanted c found e} :
    Looks conf good key wanted (candidates conf id name) c found →
    bad found e →
    Segment.Fails conf good bad id (.child name (some (.matching key wanted))) e

/-- From the node, the segments lead to a step that fails with the error. -/
inductive WalkFails (conf : Configuration) (good : NodeId → Option String → Prop)
    (bad : NodeId → ConfigError → Prop) : NodeId → List Segment → ConfigError → Prop where
  | here {id segment segments e} :
    segment.Fails conf good bad id e →
    WalkFails conf good bad id (segment :: segments) e
  | later {id next segment segments e} :
    Leads conf good id segment next →
    WalkFails conf good bad next segments e →
    WalkFails conf good bad id (segment :: segments) e

/-- The error is that of a malformed alternative, or one of an attribute that a selector in it looks
at on the way from the start. -/
inductive AlternativeFails (conf : Configuration) (good : NodeId → Option String → Prop)
    (bad : NodeId → ConfigError → Prop) (start : Option NodeId) (cs : List Char) :
    ConfigError → Prop where
  | malformed {fault} :
    Alternative.read cs = .error fault →
    AlternativeFails conf good bad start cs (.malformedPath (String.ofList cs) fault)
  | selector {alternative first e} :
    Alternative.read cs = .ok alternative →
    first ∈ (if alternative.fromRoot then some Configuration.root else start) →
    WalkFails conf good bad first alternative.segments e →
    AlternativeFails conf good bad start cs e

/-- A selector looks at attributes of the sections that it goes through. -/
lemma Looks.mem {key wanted : String} {ids : List NodeId} {c found : NodeId}
    (looks : Looks conf good key wanted ids c found) : c ∈ ids := by
  induction looks with
  | here _ => exact List.mem_cons_self
  | without _ _ ih => exact List.mem_cons_of_mem _ ih
  | unlike _ _ _ _ ih => exact List.mem_cons_of_mem _ ih

/-- The sections that a segment chooses from are sections of the node. -/
lemma mem_childrenOf {id next : NodeId} {name : Option String}
    (h : next ∈ candidates conf id name) : next ∈ conf.childrenOf id := by
  cases name with
  | none => exact h
  | some name => exact (List.mem_filter.1 h).1

/-- A step leads to a live node only. -/
lemma Leads.live (wf : conf.WellFormed) {id next : NodeId} {segment : Segment}
    (leads : Leads conf good id segment next) : ∃ d, conf.live? next = some d := by
  have listed : ∀ {k : Kind} {m : NodeId}, m ∈ ((conf.live? id).map (·.entries k)).getD [] →
      ∃ d, conf.live? m = some d := by
    intro k m hm
    cases live : conf.live? id with
    | none =>
      rw [live] at hm
      cases hm
    | some d =>
      rw [live] at hm
      obtain ⟨e, he, -⟩ := wf.listed id d k m live hm
      exact ⟨e, he⟩
  have among : ∀ {name : Option String}, next ∈ candidates conf id name →
      ∃ d, conf.live? next = some d := fun hm => listed (k := .sectionKind) (mem_childrenOf hm)
  cases leads with
  | current live => exact ⟨_, live⟩
  | parent live hp =>
    obtain ⟨-, pd, hpd, -⟩ := wf.parent live hp
    exact ⟨pd, hpd⟩
  | attributeNamed named =>
    exact listed (k := .attributeKind) (List.mem_of_find?_eq_some named)
  | attributeAt entry => exact listed (k := .attributeKind) (List.mem_of_getElem? entry)
  | first head => exact among (List.mem_of_head? head)
  | index entry => exact among (List.mem_of_getElem? entry)
  | matching looks _ _ => exact among looks.mem

section

variable (values : ∀ found, Ensures stack (good found) (bad found) (valueOf found))

include values

/-- A selector by value leads to a section whose attribute it looks at and finds alike, and fails
where an attribute does that it looks at. -/
lemma firstMatching_ensures (key wanted : String) (ids : List NodeId) :
    Ensures stack
      (fun next => ∀ c ∈ next, ∃ found actual, Looks conf good key wanted ids c found ∧
        good found actual ∧ actual.getD "" = wanted)
      (fun e => ∃ c found, Looks conf good key wanted ids c found ∧ bad found e)
      (firstMatching conf valueOf key wanted ids) := by
  induction ids with
  | nil => exact .pure nofun
  | cons id ids ih =>
    rw [firstMatching]
    cases own : keyAttribute? conf id key with
    | none =>
      refine ih.mono (fun _ results c hc => ?_) fun e fails => ?_
      · obtain ⟨found, actual, looks, like⟩ := results c hc
        exact ⟨found, actual, .without own looks, like⟩
      · obtain ⟨c, found, looks, he⟩ := fails
        exact ⟨c, found, .without own looks, he⟩
    | some keyed =>
      refine .bind ((values keyed).mono (fun _ h => h) fun e he => ⟨id, keyed, .here own, he⟩)
        fun actual evaluated => ?_
      split
      · rename_i like
        refine .pure ?_
        rintro _ ⟨⟩
        exact ⟨keyed, actual, .here own, evaluated, like⟩
      · rename_i unlike
        refine ih.mono (fun _ results c hc => ?_) fun e fails => ?_
        · obtain ⟨found, actual', looks, like⟩ := results c hc
          exact ⟨found, actual', .unlike own evaluated unlike looks, like⟩
        · obtain ⟨c, found, looks, he⟩ := fails
          exact ⟨c, found, .unlike own evaluated unlike looks, he⟩

/-- A step leads where its segment says, and fails only where its selector does. -/
lemma step_ensures (id : NodeId) (segment : Segment) :
    Ensures stack (fun next => ∀ m ∈ next, Leads conf good id segment m)
      (segment.Fails conf good bad id) (step conf valueOf id segment) := by
  cases segment with
  | current =>
    refine .pure fun m hm => ?_
    obtain ⟨d, live, rfl⟩ := Option.map_eq_some_iff.1 hm
    exact .current live
  | parent =>
    refine .pure fun m hm => ?_
    obtain ⟨d, live, hp⟩ := Option.bind_eq_some_iff.1 hm
    exact .parent live hp
  | attributeNamed name => exact .pure fun m hm => .attributeNamed hm
  | attributeAt n => exact .pure fun m hm => .attributeAt hm
  | child name selector =>
    cases selector with
    | none => exact .pure fun m hm => .first hm
    | some selector =>
      cases selector with
      | index n => exact .pure fun m hm => .index hm
      | matching key wanted =>
        refine (firstMatching_ensures values key wanted _).mono (fun _ results m hm => ?_)
          fun e ⟨c, found, looks, he⟩ => .selector looks he
        obtain ⟨found, actual, looks, evaluated, like⟩ := results m hm
        exact .matching looks evaluated like

variable {P : NodeId → Prop} (closed : ∀ id segment next, Leads conf good id segment next → P next)

include closed

/-- What holds of the node at the start and of all that steps lead to holds of the last node, and
the walk fails where one of its steps does. -/
lemma follow_ensures {node : Option NodeId} (first : ∀ id ∈ node, P id) (segments : List Segment) :
    Ensures stack (fun last => ∀ m ∈ last, P m)
      (fun e => ∃ id ∈ node, WalkFails conf good bad id segments e)
      (follow conf valueOf node segments) := by
  induction segments generalizing node with
  | nil =>
    cases node with
    | none => exact .pure nofun
    | some id => exact .pure first
  | cons segment segments ih =>
    cases node with
    | none => exact .pure nofun
    | some id =>
      refine .bind ((step_ensures values id segment).mono (fun _ h => h) fun e he =>
        ⟨id, rfl, .here he⟩) fun next leads => ?_
      refine (ih fun m hm => closed id segment m (leads m hm)).mono (fun _ h => h) ?_
      exact fun e ⟨m, hm, fails⟩ => ⟨id, rfl, .later (leads m hm) fails⟩

variable {start : Option NodeId} (first : ∀ id ∈ start, P id) (top : P Configuration.root)

include first top

/-- An alternative leads to a node of which the property holds, and fails if it is malformed or if a
step on the way does. -/
lemma followAlternative_ensures (cs : List Char) :
    Ensures stack (fun last => ∀ m ∈ last, P m) (AlternativeFails conf good bad start cs)
      (followAlternative conf valueOf start cs) := by
  unfold followAlternative
  split
  · rename_i fault read
    exact .throw (.malformed read)
  · rename_i alternative read
    refine (follow_ensures values closed ?_ _).mono (fun _ h => h)
      fun e ⟨id, hid, fails⟩ => .selector read hid fails
    split
    · rintro _ ⟨⟩
      exact top
    · exact first

/-- The alternatives lead to a node of which the property holds, and fail where one of them does. -/
lemma firstExisting_ensures (alternatives : List (List Char)) :
    Ensures stack (fun found => ∀ m ∈ found, P m)
      (fun e => ∃ cs ∈ alternatives, AlternativeFails conf good bad start cs e)
      (firstExisting conf valueOf start alternatives) := by
  induction alternatives with
  | nil => exact .pure nofun
  | cons cs rest ih =>
    refine .bind ((followAlternative_ensures values closed first top cs).mono (fun _ h => h)
      fun e he => ⟨cs, List.mem_cons_self, he⟩) fun found holds => ?_
    cases found with
    | some id => exact .pure holds
    | none => exact ih.mono (fun _ h => h) fun e ⟨c, hc, he⟩ => ⟨c, List.mem_cons_of_mem _ hc, he⟩

/-- Navigation fails where an alternative does, or if it finds no node and one is required. -/
lemma navigate_ensures (path : String) :
    Ensures stack (fun found => ∀ m ∈ found, P m)
      (fun e => (∃ cs ∈ (Outline.read path.toList).alternatives,
          AlternativeFails conf good bad start cs e) ∨
        (Outline.read path.toList).required = true)
      (navigate conf valueOf start path) := by
  refine .bind ((firstExisting_ensures values closed first top _).mono (fun _ h => h)
    fun e he => .inl he) fun found holds => ?_
  cases found with
  | some id => exact .pure holds
  | none =>
    dsimp only
    split
    · exact .throw (.inr ‹_›)
    · exact .pure nofun

end

end Path

/-! ## What comes before an evaluation -/

/-- The evaluation was stopped by the limit of substitutions. -/
def Limited {α : Type} (out : Except ConfigError α) : Prop :=
  ∃ text, out = .error (.evaluationLimit text)

/-- The step takes all nodes off the stack again that it puts there, and with fewer substitutions
before it, it ends in the same way, unless it was stopped by their limit. -/
def Steady {α : Type} (step : Eval α) : Prop :=
  ∀ stack m n, m ≤ n → (step.apply ⟨stack, n⟩).2.stack = stack ∧
    (Limited (step.apply ⟨stack, n⟩).1 ∨
      (step.apply ⟨stack, m⟩).1 = (step.apply ⟨stack, n⟩).1 ∧
        (step.apply ⟨stack, m⟩).2.substitutions ≤ (step.apply ⟨stack, n⟩).2.substitutions)

/-- Steady steps one after the other are steady. -/
lemma Steady.bind {α β : Type} {x : Eval α} {f : α → Eval β} (first : Steady x)
    (rest : ∀ a, Steady (f a)) : Steady (x >>= f) := by
  intro stack m n le
  obtain ⟨restored, same⟩ := first stack m n le
  obtain ⟨restored', -⟩ := first stack m m (Nat.le_refl m)
  rw [apply_bind, apply_bind]
  generalize x.apply ⟨stack, n⟩ = more at restored same ⊢
  generalize x.apply ⟨stack, m⟩ = fewer at restored' same ⊢
  obtain ⟨out, _, n'⟩ := more
  obtain ⟨out', _, m'⟩ := fewer
  cases restored
  cases restored'
  obtain ⟨text, rfl⟩ | ⟨rfl, le'⟩ := same
  · exact ⟨rfl, .inl ⟨text, rfl⟩⟩
  · cases out' with
    | error e => exact ⟨rfl, .inr ⟨rfl, le'⟩⟩
    | ok a => exact rest a _ m' n' le'

/-- Evaluations are steady. -/
lemma steady_inherited (provider : Macro.Provider) :
    Inherited provider fun _ step => Steady step where
  pure _ _ _ _ le := ⟨rfl, .inr ⟨rfl, le⟩⟩
  throw _ _ _ _ le := ⟨rfl, .inr ⟨rfl, le⟩⟩
  answer _ _ _ _ _ _ le := by
    rw [apply_liftExcept, apply_liftExcept]
    exact ⟨rfl, .inr ⟨rfl, le⟩⟩
  count text stack m n le := by
    rw [apply_countSubstitution, apply_countSubstitution]
    by_cases limit : maxSubstitutions < n + 1
    · exact ⟨rfl, .inl ⟨text, if_pos limit⟩⟩
    · have few : ¬ maxSubstitutions < m + 1 := by omega
      exact ⟨rfl, .inr ⟨by rw [if_neg limit, if_neg few], Nat.succ_le_succ le⟩⟩
  look h stack := h stack stack
  bind := .bind
  within id step h stack m n le := by
    obtain ⟨restored, same⟩ := h (id :: stack) m n le
    exact ⟨congrArg List.tail restored, same⟩

namespace Configuration

open ConfTree.Path

/-- The node has this value on its own. -/
def HasValue (process : Host) (conf : Configuration) (id : NodeId) (v : Option String) : Prop :=
  conf.value? process id = .ok v

/-- The value of the attribute holds references, and it cannot be evaluated because of the error, or
there were too many substitutions. -/
def AttributeFails (process : Host) (conf : Configuration) (id : NodeId) (e : ConfigError) :
    Prop :=
  (∃ raw ∈ conf.verbatim? id, hasReference raw.toList = true) ∧
    (conf.value? process id = .error e ∨ ∃ text, e = .evaluationLimit text)

/-- Without other nodes on the stack, the value of a node is evaluated as it is on its own, or fails
as it does on its own. -/
lemma nodeValue_ensures (process : Host) (conf : Configuration) (id : NodeId) :
    Ensures [] (HasValue process conf id) (AttributeFails process conf id)
      (nodeValue Eval process conf id) := by
  rintro ⟨_, n⟩ rfl
  have steady : Steady (nodeValue Eval process conf id) :=
    (steady_inherited conf.provider).nodeValue id
  obtain ⟨restored, same⟩ := steady [] 0 n (Nat.zero_le n)
  refine ⟨restored, fun v evaluated => ?_, fun e fails => ⟨?_, ?_⟩⟩
  · rw [evaluated] at same
    obtain ⟨text, limit⟩ | ⟨alone, -⟩ := same
    · cases limit
    · exact alone
  · by_contra literal
    have plain : ∀ raw ∈ conf.verbatim? id, hasReference raw.toList = false := fun raw hraw =>
      Bool.eq_false_iff.2 fun references => literal ⟨raw, hraw, references⟩
    rw [nodeValue_literal plain] at fails
    cases fails
  · rw [fails] at same
    obtain ⟨text, limit⟩ | ⟨alone, -⟩ := same
    · cases limit
      exact .inr ⟨text, rfl⟩
    · exact .inl alone

/-- A path that requires no node leads to a live node or to none. If it fails, then an alternative
is malformed, or a selector looks, on the way from the start, at an attribute whose value cannot be
evaluated. -/
theorem navigate_ends {conf : Configuration} (h : Reachable conf) (process : Host)
    {start : Option NodeId} (starts : ∀ id ∈ start, ∃ d, conf.live? id = some d) {path : String}
    (optional : (Text.trimChars path.toList).head? ≠ some '!') :
    (∀ id, conf.navigate process start path = .ok (some id) → ∃ d, conf.live? id = some d) ∧
      ∀ e, conf.navigate process start path = .error e →
        ∃ cs ∈ (Outline.read path.toList).alternatives,
          AlternativeFails conf (HasValue process conf) (AttributeFails process conf) start cs
            e := by
  have wf := h.wellFormed
  obtain ⟨root, top, -⟩ := wf.root
  have closed : ∀ id segment next, Leads conf (HasValue process conf) id segment next →
      ∃ d, conf.live? next = some d := fun _ _ _ leads => leads.live wf
  have notRequired : (Outline.read path.toList).required = false := by
    rw [Outline.read_optional optional]
  obtain ⟨-, results, errors⟩ := navigate_ensures (nodeValue_ensures process conf) closed starts
    ⟨root, top⟩ path .start rfl
  refine ⟨fun id found => results _ found id rfl, fun e fails => ?_⟩
  refine (errors e fails).resolve_right fun required => ?_
  rw [notRequired] at required
  cases required

/-- One alternative is blank, one is malformed, and one looks at an attribute that cannot be
evaluated. -/
theorem navigate_ends_sample :
    let conf := (withRoot "base").operateAll
      [(.bare, .addSection 0 "s" none), (.bare, .addAttribute 1 "k" (some "$("))]
    Reachable conf ∧ (∃ d, conf.live? 1 = some d) ∧
      conf.navigate .bare (some 1) " ;./$k | s]" = .ok (some 2) ∧
      (∃ d, conf.live? 2 = some d) ∧
      conf.navigate .bare (some 1) "$x; s]" = .error (.malformedPath "s]" .strayBracket) ∧
      (∃ cs ∈ (Outline.read "$x; s]".toList).alternatives,
        AlternativeFails conf (HasValue .bare conf) (AttributeFails .bare conf) (some 1) cs
          (.malformedPath "s]" .strayBracket)) ∧
      conf.navigate .bare none "../[k=x]; /[k=x]" = .error (.unclosedVariable "$(") ∧
      ∃ cs ∈ (Outline.read "../[k=x]; /[k=x]".toList).alternatives,
        AlternativeFails conf (HasValue .bare conf) (AttributeFails .bare conf) none cs
          (.unclosedVariable "$(") := by
  intro conf
  have reach : Reachable conf :=
    (Reachable.withRoot "base").operateAll _ (by simp [Operation.others])
  have live : ∃ d, conf.live? 1 = some d := Option.isSome_iff_exists.1 (by decide +kernel)
  have starts : ∀ id ∈ some 1, ∃ d, conf.live? id = some d := by
    rintro _ ⟨⟩
    exact live
  have nowhere : ∀ id ∈ (none : Option NodeId), ∃ d, conf.live? id = some d := by
    rintro _ ⟨⟩
  have found : conf.navigate .bare (some 1) " ;./$k | s]" = .ok (some 2) := by decide +kernel
  have malformed : conf.navigate .bare (some 1) "$x; s]" =
      .error (.malformedPath "s]" .strayBracket) := by
    decide +kernel
  have unclosed : conf.navigate .bare none "../[k=x]; /[k=x]" =
      .error (.unclosedVariable "$(") := by
    decide +kernel
  exact ⟨reach, live, found,
    (navigate_ends reach .bare starts (by decide +kernel)).1 2 found, malformed,
    (navigate_ends reach .bare starts (by decide +kernel)).2 _ malformed, unclosed,
    (navigate_ends reach .bare nowhere (by decide +kernel)).2 _ unclosed⟩

/-- A reference that is never closed, in an attribute that a selector looks at, is met although the
path requires no node and is well formed. -/
theorem not_navigate_absent :
    let conf := (withRoot "base").operateAll
      [(.bare, .addSection 0 "s" none), (.bare, .addAttribute 1 "k" (some "$("))]
    Reachable conf ∧
      Alternative.read "/s[k=x]".toList =
        .ok ⟨true, [.child (some "s") (some (.matching "k" "x"))]⟩ ∧
      conf.navigate .bare none "/s[k=x]" = .error (.unclosedVariable "$(") := by
  intro conf
  exact ⟨(Reachable.withRoot "base").operateAll _ (by simp [Operation.others]),
    by decide +kernel, by decide +kernel⟩

end Configuration

end ConfTree
