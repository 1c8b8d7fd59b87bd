import ConfTree.Proofs.Evaluation.Outcome

/-!
# Evaluations that agree

Two outcomes agree if they are values in a given relation or errors of one kind. Two evaluations
agree if they take states in a given relation to outcomes that agree, and to such states again. What
is put together from evaluations that agree agrees (`Eval.Agrees.bind`, `Eval.Agrees.within`).
-/

namespace ConfTree

/-- The errors have the same cause, whatever texts and paths they name. -/
def ConfigError.SameKind (e e' : ConfigError) : Prop := e.ctorIdx = e'.ctorIdx

instance (e e' : ConfigError) : Decidable (e.SameKind e') :=
  inferInstanceAs (Decidable (e.ctorIdx = e'.ctorIdx))

/-- Both outcomes are values in the relation, or both are errors of one kind. -/
inductive Agree {α β : Type} (V : α → β → Prop) :
    Except ConfigError α → Except ConfigError β → Prop where
  | ok {a b} :
    V a b →
    Agree V (.ok a) (.ok b)
  | error {e e'} :
    e.SameKind e' →
    Agree V (.error e) (.error e')

/-- An outcome agrees with itself. -/
lemma Agree.refl {α : Type} (out : Except ConfigError α) : Agree (· = ·) out out := by
  cases out with
  | ok a => exact .ok rfl
  | error e => exact .error rfl

namespace Eval

variable {α β γ δ : Type} {S : EvalState → EvalState → Prop} {V : α → β → Prop}

/-- From states in the relation, the evaluations end in outcomes that agree and in such states. -/
def Agrees (S : EvalState → EvalState → Prop) (V : α → β → Prop) (x : Eval α) (y : Eval β) : Prop :=
  ∀ s s', S s s' → Agree V (x.apply s).1 (y.apply s').1 ∧ S (x.apply s).2 (y.apply s').2

/-- States in the relation count as many substitutions, and one more in each of them is as well. -/
def CountsAlike (S : EvalState → EvalState → Prop) : Prop :=
  ∀ s s', S s s' → s.substitutions = s'.substitutions ∧
    S { s with substitutions := s.substitutions + 1 }
      { s' with substitutions := s'.substitutions + 1 }

/-- The evaluation has the value from some state. -/
def Yields (x : Eval α) (a : α) : Prop := ∃ s, (x.apply s).1 = .ok a

/-- A step that does nothing yields its own result. -/
lemma Yields.of_pure {a b : α} (h : (Pure.pure a : Eval α).Yields b) : a = b := by
  obtain ⟨s, h⟩ := h
  exact Except.ok.inj h

/-- What has a value after another evaluation has it for a value of the other. -/
lemma Yields.of_bind {x : Eval α} {f : α → Eval γ} {c : γ} (h : (x >>= f).Yields c) :
    ∃ a, x.Yields a ∧ (f a).Yields c := by
  obtain ⟨s, h⟩ := h
  rw [apply_bind] at h
  cases run : x.apply s with
  | mk out s' =>
    rw [run] at h
    cases out with
    | error e => cases h
    | ok a => exact ⟨a, ⟨s, congrArg Prod.fst run⟩, ⟨s', h⟩⟩

namespace Agrees

variable {x : Eval α} {y : Eval β}

/-- A step agrees with itself. -/
lemma refl (x : Eval α) : Agrees (· = ·) (· = ·) x x := by
  rintro s _ rfl
  exact ⟨.refl _, rfl⟩

/-- Steps that only give related results agree. -/
lemma pure {a : α} {b : β} (h : V a b) : Agrees S V (Pure.pure a) (Pure.pure b) :=
  fun _ _ hs => ⟨.ok h, hs⟩

/-- Steps that fail with errors of one kind agree. -/
lemma throw {e e' : ConfigError} (h : e.SameKind e') :
    Agrees S V (MonadExcept.throw e : Eval α) (MonadExcept.throw e' : Eval β) :=
  fun _ _ hs => ⟨.error h, hs⟩

/-- A value that is agreed on is one that the first evaluation has. -/
lemma yields (h : Agrees S V x y) : Agrees S (fun a b => x.Yields a ∧ V a b) x y := by
  intro s s' hs
  obtain ⟨same, hs'⟩ := h s s' hs
  refine ⟨?_, hs'⟩
  generalize out : (x.apply s).1 = o at same ⊢
  generalize (y.apply s').1 = o' at same ⊢
  cases same with
  | ok related => exact .ok ⟨⟨s, out⟩, related⟩
  | error kind => exact .error kind

/-- Steps that agree are followed by steps that agree. -/
lemma bind {W : γ → δ → Prop} {f : α → Eval γ} {g : β → Eval δ} (first : Agrees S V x y)
    (rest : ∀ a b, V a b → Agrees S W (f a) (g b)) : Agrees S W (x >>= f) (y >>= g) := by
  intro s s' hs
  obtain ⟨same, hs⟩ := first s s' hs
  rw [apply_bind, apply_bind]
  generalize x.apply s = run at same hs ⊢
  generalize y.apply s' = run' at same hs ⊢
  obtain ⟨out, s⟩ := run
  obtain ⟨out', s'⟩ := run'
  cases same with
  | ok related => exact rest _ _ related s s' hs
  | error kind => exact ⟨.error kind, hs⟩

/-- Evaluations of one value agree after the same is done with it. -/
lemma map {x y : Eval α} (h : Agrees S (· = ·) x y) (f : α → γ) :
    Agrees S (· = ·) (x >>= fun a => Pure.pure (f a)) (y >>= fun a => Pure.pure (f a)) :=
  h.bind fun _ _ same => .pure (congrArg f same)

/-- What was computed without the state agrees with itself. -/
lemma answer (out : Except ConfigError α) :
    Agrees S (· = ·) (liftExcept out : Eval α) (liftExcept out) := by
  intro s s' hs
  rw [apply_liftExcept, apply_liftExcept]
  exact ⟨.refl out, hs⟩

/-- Substitutions are counted alike. -/
lemma count (counts : CountsAlike S) (text text' : String) :
    Agrees S (· = ·) (countSubstitution text) (countSubstitution text') := by
  intro s s' hs
  obtain ⟨same, hs'⟩ := counts s s' hs
  rw [apply_countSubstitution, apply_countSubstitution, ← same]
  refine ⟨?_, same ▸ hs'⟩
  split
  · exact .error rfl
  · exact .ok rfl

/-- Evaluations agree with nodes on the stack if the relation of states allows for these. -/
lemma within {a b : NodeId}
    (push : ∀ s s', S s s' → S { s with stack := a :: s.stack } { s' with stack := b :: s'.stack })
    (pop : ∀ s s', S s s' → S { s with stack := s.stack.tail } { s' with stack := s'.stack.tail })
    (inner : Agrees S V x y) : Agrees S V (Nests.within a x) (Nests.within b y) := by
  intro s s' hs
  obtain ⟨same, hs⟩ := inner _ _ (push s s' hs)
  rw [apply_within, apply_within]
  exact ⟨same, pop _ _ hs⟩

/-- Pieces agree if their references do, whatever texts they are taken from. -/
lemma joinPieces {process : Host} {conf conf' : Configuration}
    {valueOf valueOf' : Path.ValueOf Eval} {context context' : Option NodeId}
    (counts : CountsAlike S)
    (text text' : String) {ps : List Piece}
    (resolves : ∀ body, .reference body ∈ ps → Agrees S (· = ·)
      ((Reference.read body).resolve process conf valueOf context)
      ((Reference.read body).resolve process conf' valueOf' context')) :
    Agrees S (· = ·) (joinPieces process conf valueOf context text ps)
      (joinPieces process conf' valueOf' context' text' ps) := by
  induction ps with
  | nil => exact .pure rfl
  | cons p ps ih =>
    have rest := ih fun body hb => resolves body (List.mem_cons_of_mem _ hb)
    cases p with
    | char c => exact rest.map _
    | escape => exact rest.map _
    | unclosed => exact .throw rfl
    | reference body =>
      refine (count counts text text').bind fun _ _ _ =>
        (resolves body List.mem_cons_self).bind ?_
      rintro resolved _ rfl
      exact rest.map _

end Agrees

end Eval

end ConfTree
