import ConfTree.Proofs.Evaluation.Agreement
import ConfTree.Proofs.Evaluation.CanonicalReference
import ConfTree.Proofs.Evaluation.Inherited

/-!
# Texts in parts

A text is evaluated from left to right, and what a reference stands for is not looked at again. So a
text in two parts has the values of its parts, one after the other, unless a reference is opened
across the parts (`evaluateText_append`): its pieces are those of the parts (`pieces_append`), and
what is evaluated first takes part in the rest by the number of substitutions only
(`Eval.Additive`). An escape is no substitution, so every text can be written such that it is its
own value (`evaluate_escaped`).
-/

namespace ConfTree

open ConfTree.Text

/-! ## Pieces of texts in parts -/

/-- The first text ends in the mark of references, and the second begins with the parenthesis. -/
def OpensAcross (cs ds : List Char) : Prop := cs.getLast? = some '$' ∧ ds.head? = some '('

instance (cs ds : List Char) : Decidable (OpensAcross cs ds) :=
  inferInstanceAs (Decidable (_ ∧ _))

/-- A character that opens no reference with the next one is a piece. -/
lemma piecesFrom_char {c : Char} {cs : List Char} (plain : c = '$' → cs.head? ≠ some '(') :
    piecesFrom none (c :: cs) = .char c :: piecesFrom none cs := by
  rw [piecesFrom]
  rintro _ rfl rfl
  exact plain rfl rfl

/-- If all references of the first text are closed in it, the pieces of the second text come after
those of the first. -/
lemma piecesFrom_concat {cs ds : List Char} (apart : ¬ OpensAcross cs ds)
    (state : Option (Nat × List Char)) (closed : .unclosed ∉ piecesFrom state cs) :
    piecesFrom state (cs ++ ds) = piecesFrom state cs ++ piecesFrom none ds := by
  have later : ∀ {c : Char} {cs : List Char}, ¬ OpensAcross (c :: cs) ds → ¬ OpensAcross cs ds := by
    intro c cs apart across
    refine apart ⟨?_, across.2⟩
    rw [List.getLast?_cons, across.1]
    rfl
  fun_induction piecesFrom state cs with
  | case1 => rfl
  | case2 cs ih =>
    rw [List.cons_append, List.cons_append, piecesFrom]
    exact ih (later (later apart)) closed
  | case3 c cs plain ih =>
    rw [List.cons_append, piecesFrom_char, ih (later apart) (mt (List.mem_cons_of_mem _) closed)]
    · rfl
    · rintro rfl opens
      cases cs with
      | nil => exact apart ⟨rfl, opens⟩
      | cons d cs =>
        cases opens
        exact plain cs rfl rfl
  | case4 => exact absurd List.mem_cons_self closed
  | case5 _ _ _ ih => exact ih (later apart) closed
  | case6 _ _ _ ih =>
    exact congrArg (_ :: ·) (ih (later apart) (mt (List.mem_cons_of_mem _) closed))
  | case7 _ _ _ _ ih => exact ih (later apart) closed
  | case8 _ _ _ _ opens closes ih =>
    rw [List.cons_append, piecesFrom_other opens closes]
    exact ih (later apart) closed

/-- A text in two parts has the pieces of its parts. -/
lemma pieces_append {cs ds : List Char} (apart : ¬ OpensAcross cs ds)
    (closed : .unclosed ∉ pieces cs) : pieces (cs ++ ds) = pieces cs ++ pieces ds :=
  piecesFrom_concat apart none closed

/-! ## Escapes -/

/-- The text with an escape for each two characters that open a reference. -/
def escapeChars : List Char → List Char
  | '$' :: '(' :: cs => '$' :: '(' :: '#' :: '#' :: '#' :: ')' :: escapeChars cs
  | c :: cs => c :: escapeChars cs
  | [] => []

/-- The text with an escape for each two characters that open a reference. -/
def escaped (text : String) : String := String.ofList (escapeChars text.toList)

/-- Escaping keeps the first character. -/
lemma head?_escapeChars (cs : List Char) : (escapeChars cs).head? = cs.head? := by
  fun_cases escapeChars cs <;> rfl

section

variable {process : Host} {conf : Configuration} {valueOf : Path.ValueOf Eval}
  {context : Option NodeId} {text : String}

/-- The pieces of a text with escapes are the characters of the text. -/
lemma joinPieces_escapeChars (cs : List Char) :
    joinPieces process conf valueOf context text (pieces (escapeChars cs)) = pure cs := by
  fun_induction escapeChars cs with
  | case1 cs ih =>
    have escape : pieces ('$' :: '(' :: '#' :: '#' :: '#' :: ')' :: escapeChars cs) =
        .escape :: pieces (escapeChars cs) := rfl
    rw [escape, joinPieces, ih, pure_bind]
  | case2 c cs plain ih =>
    rw [pieces, piecesFrom_char, ← pieces, joinPieces, ih, pure_bind]
    rintro rfl opens
    rw [head?_escapeChars] at opens
    obtain ⟨rest, rfl⟩ := List.head?_eq_some_iff.1 opens
    exact plain rest rfl rfl
  | case3 => rfl

/-- A text with escapes is evaluated to the text, without a substitution. -/
lemma evaluateText_escaped (s : String) :
    evaluateText process conf valueOf context (escaped s) = pure s := by
  rw [evaluateText, escaped, String.toList_ofList, joinPieces_escapeChars, pure_bind,
    String.ofList_toList]

end

/-- A text with escapes in place of what opens references is evaluated to the text, wherever it
stands and however many substitutions came before. -/
theorem evaluate_escaped (process : Host) (conf : Configuration) (s : String) :
    (∀ context,
      evaluateText process conf (nodeValue Eval process conf) context (escaped s) = pure s) ∧
      (∀ node, conf.evaluate process node (escaped s) = .ok s) ∧
      ∀ id, conf.verbatim? id = some (escaped s) → conf.value? process id = .ok (some s) := by
  have evaluated : ∀ node, conf.evaluate process node (escaped s) = .ok s := by
    intro node
    rw [Configuration.evaluate, evaluateText_escaped]
    rfl
  refine ⟨fun _ => evaluateText_escaped s, evaluated, fun id verbatim => ?_⟩
  cases opens : hasReference (escaped s).toList with
  | false =>
    have literal := Configuration.evaluate_literal process conf none opens
    rw [evaluated] at literal
    rw [Configuration.value?_literal, verbatim, ← Except.ok.inj literal]
    rintro _ value
    rw [verbatim] at value
    cases value
    exact opens
  | true =>
    obtain ⟨d, live, value⟩ := Option.bind_eq_some_iff.1 verbatim
    have run : (nodeValueWithin Eval process conf maxDepth id).apply .start = _ :=
      apply_nodeValueWithin_succ live value opens List.not_mem_nil
    rw [evaluateText_escaped] at run
    exact congrArg Prod.fst run

/-- Marks, signs and parentheses around what opens references, and an escape that is escaped. -/
theorem evaluate_escaped_sample :
    let conf := (Configuration.withRoot "base").operateAll
      [(.bare, .addAttribute 0 "k" (some "$$(###)(#)$$(###)###)$"))]
    escaped "$$((#)$$(###)$" = "$$(###)(#)$$(###)###)$" ∧
      conf.verbatim? 1 = some (escaped "$$((#)$$(###)$") ∧
      conf.value? .bare 1 = .ok (some "$$((#)$$(###)$") ∧
      conf.evaluate .bare (some 1) (escaped "$$((#)$$(###)$") = .ok "$$((#)$$(###)$" := by
  intro conf
  have written : escaped "$$((#)$$(###)$" = "$$(###)(#)$$(###)###)$" := by decide +kernel
  have verbatim : conf.verbatim? 1 = some (escaped "$$((#)$$(###)$") := by
    rw [written]
    decide +kernel
  obtain ⟨-, evaluated, values⟩ := evaluate_escaped .bare conf "$$((#)$$(###)$"
  exact ⟨written, verbatim, values 1 verbatim, evaluated (some 1)⟩

/-! ## One part after the other -/

open Eval

section

variable {process : Host} {conf : Configuration} {valueOf : Path.ValueOf Eval}
  {context : Option NodeId}

/-- Pieces are joined one after the other. -/
lemma joinPieces_concat (text : String) (ps qs : List Piece) :
    joinPieces process conf valueOf context text (ps ++ qs) = (do
      let cs ← joinPieces process conf valueOf context text ps
      let ds ← joinPieces process conf valueOf context text qs
      return cs ++ ds) := by
  induction ps with
  | nil =>
    rw [joinPieces, pure_bind]
    exact (bind_pure _).symm
  | cons p ps ih =>
    cases p with
    | unclosed => rfl
    | _ => simp only [List.cons_append, joinPieces, ih, bind_assoc, pure_bind, List.append_assoc]

/-- Pieces that are joined are closed. -/
lemma closed_of_yields {text : String} {ps : List Piece} {cs : List Char}
    (joined : (joinPieces process conf valueOf context text ps).Yields cs) : .unclosed ∉ ps := by
  have rest : ∀ {p : Piece} {ps : List Piece}, p ≠ .unclosed → .unclosed ∉ ps →
      .unclosed ∉ p :: ps := fun hp hps => List.not_mem_cons_of_ne_of_not_mem hp.symm hps
  induction ps generalizing cs with
  | nil => exact List.not_mem_nil
  | cons p ps ih =>
    cases p with
    | char c =>
      obtain ⟨ds, joined, -⟩ := joined.of_bind
      exact rest nofun (ih joined)
    | escape =>
      obtain ⟨ds, joined, -⟩ := joined.of_bind
      exact rest nofun (ih joined)
    | unclosed =>
      obtain ⟨_, fails⟩ := joined
      cases fails
    | reference body =>
      obtain ⟨_, -, joined⟩ := joined.of_bind
      obtain ⟨_, -, joined⟩ := joined.of_bind
      obtain ⟨ds, joined, -⟩ := joined.of_bind
      exact rest nofun (ih joined)

/-- The text that pieces are taken from matters to what an error tells only. -/
lemma joinPieces_agrees (text text' : String) (ps : List Piece) :
    Agrees (· = ·) (· = ·) (joinPieces process conf valueOf context text ps)
      (joinPieces process conf valueOf context text' ps) := by
  refine .joinPieces ?_ text text' fun _ _ => .refl _
  rintro s _ rfl
  exact ⟨rfl, rfl⟩

/-- A text in two parts is evaluated as its parts are, one after the other. -/
lemma evaluateText_parts {a b : String} (apart : ¬ OpensAcross a.toList b.toList)
    (closed : .unclosed ∉ pieces a.toList) :
    Agrees (· = ·) (· = ·)
      (do
        let v ← evaluateText process conf valueOf context a
        let w ← evaluateText process conf valueOf context b
        return v ++ w)
      (evaluateText process conf valueOf context (a ++ b)) := by
  have parts : pieces (a ++ b).toList = pieces a.toList ++ pieces b.toList := by
    rw [String.toList_append]
    exact pieces_append apart closed
  simp only [evaluateText, parts, joinPieces_concat, bind_assoc, pure_bind]
  refine (joinPieces_agrees _ _ _).bind ?_
  rintro cs _ rfl
  refine (joinPieces_agrees _ _ _).bind ?_
  rintro ds _ rfl
  exact .pure (String.ofList_append ..).symm

end

namespace Eval

variable {α β : Type} {stack : List NodeId} {m n : Nat}

/-- The step takes all nodes off the stack again that it puts there. It counts some substitutions,
and if their limit is not exceeded, it ends in the same way with fewer substitutions before it. -/
def Additive (step : Eval α) : Prop :=
  ∀ stack n, ∃ k, (step.apply ⟨stack, n⟩).2 = ⟨stack, n + k⟩ ∧
    (n + k ≤ maxSubstitutions → ∀ m ≤ n,
      step.apply ⟨stack, m⟩ = ((step.apply ⟨stack, n⟩).1, ⟨stack, m + k⟩))

/-- The step stays within the limit of substitutions. -/
def Light (step : Eval α) (state : EvalState) : Prop :=
  (step.apply state).2.substitutions ≤ maxSubstitutions

namespace Additive

/-- Additive steps one after the other are additive. -/
lemma bind {x : Eval α} {f : α → Eval β} (first : Additive x) (rest : ∀ a, Additive (f a)) :
    Additive (x >>= f) := by
  intro stack n
  obtain ⟨k, ended, same⟩ := first stack n
  simp only [apply_bind]
  generalize run : x.apply ⟨stack, n⟩ = r at ended same ⊢
  obtain ⟨out, _⟩ := r
  cases ended
  cases out with
  | error e => exact ⟨k, rfl, fun light m le => by rw [same light m le]⟩
  | ok a =>
    obtain ⟨l, ended, same'⟩ := rest a stack (n + k)
    rw [Nat.add_assoc] at ended same'
    refine ⟨k + l, ended, fun light m le => ?_⟩
    rw [same (by omega) m le]
    exact (same' light (m + k) (by omega)).trans (by rw [Nat.add_assoc])

/-- With fewer substitutions before it, a step within the limit ends in the same way. -/
lemma fewer {step : Eval α} (h : Additive step) (light : Light step ⟨stack, n⟩) (le : m ≤ n) :
    (step.apply ⟨stack, m⟩).1 = (step.apply ⟨stack, n⟩).1 := by
  obtain ⟨k, ended, same⟩ := h stack n
  rw [Light, ended] at light
  rw [same light m le]

/-- If the whole stays within the limit, then so does the first part. -/
lemma light_first {x : Eval α} {f : α → Eval β} (rest : ∀ a, Additive (f a)) {state : EvalState}
    (light : Light (x >>= f) state) : Light x state := by
  rw [Light, apply_bind] at light
  rw [Light]
  generalize x.apply state = run at light ⊢
  obtain ⟨out, stack, n⟩ := run
  cases out with
  | error e => exact light
  | ok a =>
    obtain ⟨k, ended, -⟩ := rest a stack n
    dsimp only at light
    rw [ended] at light
    exact Nat.le_trans (Nat.le_add_right n k) light

end Additive

/-- What is evaluated adds to the substitutions before it. -/
lemma additive_inherited (provider : Macro.Provider) :
    Inherited provider fun _ step => Additive step where
  pure _ _ _ := ⟨0, rfl, fun _ _ _ => rfl⟩
  throw _ _ _ := ⟨0, rfl, fun _ _ _ => rfl⟩
  answer instant call input stack n := by
    refine ⟨0, ?_, fun light m le => ?_⟩
    · rw [apply_liftExcept]
      rfl
    · rw [apply_liftExcept, apply_liftExcept]
      rfl
  count text stack n := by
    refine ⟨1, by rw [apply_countSubstitution], fun light m le => ?_⟩
    rw [apply_countSubstitution, apply_countSubstitution, if_neg (by dsimp only; omega),
      if_neg (by dsimp only; omega)]
  look h stack := h stack stack
  bind := .bind
  within id step h stack n := by
    obtain ⟨k, ended, same⟩ := h (id :: stack) n
    refine ⟨k, by rw [apply_within, ended]; rfl, fun light m le => ?_⟩
    rw [apply_within, same light m le]
    rfl

/-- With no fewer substitutions before it than in the state, the step has the value, as long as it
stays within their limit. -/
def Gives (state : EvalState) (a : α) (step : Eval α) : Prop :=
  ∀ n, state.substitutions ≤ n → Light step ⟨state.stack, n⟩ →
    (step.apply ⟨state.stack, n⟩).1 = .ok a

variable {state : EvalState} {a : α} {b : β}

/-- A result is given at once. -/
lemma Gives.pure : Gives state a (Pure.pure a : Eval α) := fun _ _ _ => rfl

/-- An additive step with a value gives it. -/
lemma Additive.gives {step : Eval α} (h : Additive step) (value : (step.apply state).1 = .ok a) :
    Gives state a step :=
  fun _ le light => (h.fewer light le).symm.trans value

/-- A step that gives a value hands it on to the next one. -/
lemma Gives.bind {x : Eval α} {f : α → Eval β} (first : Additive x) (rest : ∀ a, Additive (f a))
    (value : Gives state a x) (next : Gives state b (f a)) : Gives state b (x >>= f) := by
  intro n le light
  have value := value n le (Additive.light_first rest light)
  obtain ⟨k, ended, -⟩ := first state.stack n
  have run : x.apply ⟨state.stack, n⟩ = (.ok a, ⟨state.stack, n + k⟩) := Prod.ext value ended
  rw [Light, apply_bind_ok run] at light
  rw [apply_bind_ok run]
  exact next (n + k) (by omega) light

/-- Below the limit a substitution is counted. -/
lemma gives_countSubstitution (text : String) : Gives state () (countSubstitution text) := by
  intro n _ light
  rw [Light, apply_countSubstitution] at light
  rw [apply_countSubstitution]
  exact if_neg (Nat.not_lt.2 light)

end Eval

/-! ## What a reference stands for -/

section

variable (process : Host) (conf : Configuration) (context : Option NodeId) (state : EvalState)

/-- The evaluation of a text whose references are relative to a section. -/
abbrev Configuration.evaluation (text : String) : Eval String :=
  evaluateText process conf (nodeValue Eval process conf) context text

/-- What a reference takes from its target: nothing, a variable of the environment, or the value of
the node that its path leads to. -/
inductive Target.Supplies : Target → Option String → Prop where
  | nothing :
    Supplies .nothing none
  | variableNamed {name} :
    Supplies (.variableNamed name) (conf.environment process name)
  | absent {path} :
    ((Path.navigate conf (nodeValue Eval process conf) context path).apply state).1 = .ok none →
    Supplies (.node path) none
  | found {path id value} :
    ((Path.navigate conf (nodeValue Eval process conf) context path).apply state).1 =
      .ok (some id) →
    ((nodeValue Eval process conf id).apply state).1 = .ok value →
    Supplies (.node path) (some (value.getD ""))

/-- The text that a reference stands for: what it takes from its target, or what a macro makes of
it. -/
inductive Reference.StandsFor (r : Reference) : String → Prop where
  | input {input} :
    Target.Supplies process conf context state r.target input →
    (r.required = true → input.isSome) →
    r.call = none →
    StandsFor r (input.getD "")
  | call {input text call result} :
    Target.Supplies process conf context state r.target input →
    (r.required = true → input.isSome) →
    r.call = some text →
    Macro.Call.parse text = .ok call →
    conf.provider process.instant call input = .ok result →
    StandsFor r result

variable {process} {conf} {context} {state}

/-- What a target supplies is the input of its macro. -/
lemma Target.Supplies.gives {target : Target} {input : Option String}
    (h : target.Supplies process conf context state input) :
    Gives state input (target.input process conf (nodeValue Eval process conf) context) := by
  have additive := additive_inherited conf.provider
  have values : ∀ id, Additive (nodeValue Eval process conf id) := additive.nodeValue
  have mapped : ∀ {α β : Type} {x : Eval α} (f : α → β) {a : α}, Additive x → Gives state a x →
      Gives state (f a) (x >>= fun a => pure (f a)) :=
    fun f _ first value => .bind first (fun _ => additive.pure _) value .pure
  have navigated : ∀ path,
      Additive (Path.navigate conf (nodeValue Eval process conf) context path) :=
    additive.navigate values context
  have rest : Additive (pure (none : Option String)) ∧ ∀ id, Additive (do
      let value ← nodeValue Eval process conf id
      return some (value.getD "")) :=
    ⟨additive.pure none, fun id => additive.bind (values id) fun _ => additive.pure _⟩
  cases h with
  | nothing => exact .pure
  | variableNamed => exact .pure
  | absent leads =>
    exact .bind (navigated _) (Option.forall.2 rest) ((navigated _).gives leads) .pure
  | @found path id value leads has =>
    exact .bind (navigated _) (Option.forall.2 rest) ((navigated _).gives leads)
      (mapped (fun value => some (value.getD "")) (values id) ((values id).gives has))

/-- A reference gives the text that it stands for. -/
lemma Reference.StandsFor.gives {r : Reference} {text : String}
    (h : r.StandsFor process conf context state text) :
    Gives state text (r.resolve process conf (nodeValue Eval process conf) context) := by
  have additive := additive_inherited conf.provider
  have values : ∀ id, Additive (nodeValue Eval process conf id) := additive.nodeValue
  have first : Additive (r.target.input process conf (nodeValue Eval process conf) context) :=
    additive.input values context r.target
  have met : ∀ {input : Option String}, (r.required = true → input.isSome) →
      ¬ (r.required && input.isNone) = true := by
    rintro (_ | _) present
    · cases required : r.required with
      | false => exact Bool.false_ne_true
      | true => cases present required
    · rw [Option.isNone_some, Bool.and_false]
      exact Bool.false_ne_true
  cases h with
  | input supplies present call =>
    refine .bind first (additive.answered context r) supplies.gives ?_
    dsimp only
    rw [if_neg (met present), call]
    exact .pure
  | call supplies present call parsed answer =>
    refine .bind first (additive.answered context r) supplies.gives ?_
    dsimp only
    rw [if_neg (met present), call]
    dsimp only
    intro n _ _
    rw [parsed, apply_bind_ok (apply_liftExcept _), apply_liftExcept]
    exact answer

/-- A reference has the text that it stands for as its value. -/
lemma Reference.StandsFor.gives_reference {body : List Char} {text written : String}
    (stands : (Reference.read body).StandsFor process conf context state text)
    (balanced : Balanced body) (noEscape : trimChars body ≠ ['#', '#', '#'])
    (chars : written.toList = [] ++ '$' :: '(' :: (body ++ [')'])) :
    Gives state text (conf.evaluation process context written) := by
  have additive := additive_inherited conf.provider
  have values : ∀ id, Additive (nodeValue Eval process conf id) := additive.nodeValue
  have resolved : Additive ((Reference.read body).resolve process conf (nodeValue Eval process conf)
      context) := additive.resolve values context _
  have same : String.ofList ([] ++ (text.toList ++ [])) = text := by simp
  rw [Configuration.evaluation, evaluateText_reference List.not_mem_nil balanced noEscape rfl chars]
  refine .bind (additive.count written) (fun _ => ?_) (gives_countSubstitution written) ?_
  · exact additive.bind resolved fun _ => additive.pure _
  · refine .bind resolved (fun _ => additive.pure _) stands.gives ?_
    rw [same]
    exact .pure

end

/-! ## Texts one after the other -/

section

variable {process : Host} {conf : Configuration} {context : Option NodeId}
  {state : EvalState} {a b v : String}

/-- The evaluation of a text is additive. -/
lemma additive_evaluation (text : String) : Additive (conf.evaluation process context text) :=
  (additive_inherited conf.provider).evaluateText (additive_inherited conf.provider).nodeValue _ _

variable (apart : ¬ OpensAcross a.toList b.toList) (closed : .unclosed ∉ pieces a.toList)
  (light : Light (conf.evaluation process context (a ++ b)) state)

include apart closed light

/-- If a text stays within the limit, then so does its first part. -/
lemma light_of_append : Light (conf.evaluation process context a) state := by
  obtain ⟨-, ended⟩ := @evaluateText_parts process conf (nodeValue Eval process conf) context a b
    apart closed state state rfl
  rw [Light, ← ended] at light
  refine Additive.light_first (fun v => ?_) light
  exact (additive_evaluation b).bind fun w => (additive_inherited conf.provider).pure _

/-- A text in two parts has the values of its parts, one after the other. -/
lemma evaluation_append (value : ((conf.evaluation process context a).apply state).1 = .ok v) :
    Agree (fun w t => t = v ++ w) ((conf.evaluation process context b).apply state).1
      ((conf.evaluation process context (a ++ b)).apply state).1 := by
  obtain ⟨stack, n⟩ := state
  obtain ⟨k, after, -⟩ := @additive_evaluation process conf context a stack n
  have run : (conf.evaluation process context a).apply ⟨stack, n⟩ = (.ok v, ⟨stack, n + k⟩) :=
    Prod.ext value after
  obtain ⟨same, ended⟩ := @evaluateText_parts process conf (nodeValue Eval process conf) context a b
    apart closed ⟨stack, n⟩ _ rfl
  rw [Light, ← ended] at light
  rw [apply_bind_ok run] at same light
  -- The second part is evaluated after the substitutions of the first one.
  have later := (additive_evaluation b).fewer
    (Additive.light_first (fun w => (additive_inherited conf.provider).pure _) light)
    (Nat.le_add_right n k)
  rw [apply_bind] at same
  rw [later]
  generalize ((evaluateText process conf (nodeValue Eval process conf) context (a ++ b)).apply
    ⟨stack, n⟩).1 = whole at same ⊢
  generalize (evaluateText process conf (nodeValue Eval process conf) context b).apply
    ⟨stack, n + k⟩ = second at same ⊢
  obtain ⟨out, s⟩ := second
  cases out with
  | error e =>
    cases same with
    | error kind => exact .error kind
  | ok w =>
    change Agree (· = ·) (.ok (v ++ w)) whole at same
    cases same with
    | ok joined => exact .ok joined.symm

end

/-- Where a text in two parts stays within the limit of substitutions and its first part has a
value, this value stands in front of that of the second part, and the whole fails as the second part
does. So does the text that a reference stands for, whatever marks and parentheses are in it. -/
theorem evaluateText_append (process : Host) (conf : Configuration)
    (context : Option NodeId) (state : EvalState) (b : String) :
    (∀ a v, ((conf.evaluation process context a).apply state).1 = .ok v →
      ¬ OpensAcross a.toList b.toList →
      Light (conf.evaluation process context (a ++ b)) state →
      Agree (fun w t => t = v ++ w) ((conf.evaluation process context b).apply state).1
        ((conf.evaluation process context (a ++ b)).apply state).1) ∧
    ∀ body text, Balanced body → trimChars body ≠ ['#', '#', '#'] →
      (Reference.read body).StandsFor process conf context state text →
      Light (conf.evaluation process context ("$(" ++ String.ofList body ++ ")" ++ b)) state →
      Agree (fun w t => t = text ++ w) ((conf.evaluation process context b).apply state).1
        ((conf.evaluation process context ("$(" ++ String.ofList body ++ ")" ++ b)).apply
          state).1 := by
  constructor
  · intro a v value apart light
    obtain ⟨cs, joined, -⟩ := Yields.of_bind ⟨state, value⟩
    exact evaluation_append apart (closed_of_yields joined) light value
  · intro body text balanced noEscape stands light
    have chars : ("$(" ++ String.ofList body ++ ")").toList =
        [] ++ '$' :: '(' :: (body ++ [')']) := by simp
    have piece : Piece.ofBody body = .reference body := if_neg noEscape
    have closed : .unclosed ∉ pieces ("$(" ++ String.ofList body ++ ")").toList := by
      rw [chars, pieces_surrounded List.not_mem_nil balanced, piece]
      simp [pieces, piecesFrom]
    have apart : ¬ OpensAcross ("$(" ++ String.ofList body ++ ")").toList b.toList := by
      rintro ⟨last, -⟩
      rw [chars, List.nil_append, ← List.cons_append, ← List.cons_append,
        List.getLast?_concat] at last
      cases last
    refine evaluation_append apart closed light ?_
    exact stands.gives_reference balanced noEscape chars _ (Nat.le_refl _)
      (light_of_append apart closed light)

/-- Values with marks and parentheses, of a variable, of a node and of a macro: what follows them
could close what they open, and it has a value or fails. -/
theorem evaluateText_append_sample :
    let conf := (Configuration.withRoot "base").operateAll
      [(.bare, .addAttribute 0 "k" (some ") $(###)"))]
    let text := conf.evaluation ⟨[("x", "$(5) (")], .epoch⟩ (some 0)
    ((text "<$(~x)$($k)").apply .start).1 = .ok "<$(5) () $(" ∧
      ¬ OpensAcross "<$(~x)$($k)".toList "(~x)$(!~y)".toList ∧
      Light (text ("<$(~x)$($k)" ++ "(~x)$(!~y)")) .start ∧
      ((text "(~x)$(!~y)").apply .start).1 = .error (.requiredValueMissing "~y" "/") ∧
      Agree (fun w t => t = "<$(5) () $(" ++ w) ((text "(~x)$(!~y)").apply .start).1
        ((text ("<$(~x)$($k)" ++ "(~x)$(!~y)")).apply .start).1 ∧
      Balanced "$k::or dflt=(0)".toList ∧ trimChars "$k::or dflt=(0)".toList ≠ ['#', '#', '#'] ∧
      (Reference.read "$k::or dflt=(0)".toList).StandsFor ⟨[("x", "$(5) (")], .epoch⟩ conf (some 0)
        .start
        ") $(" ∧
      Light (text ("$(" ++ String.ofList "$k::or dflt=(0)".toList ++ ")" ++ "~x)")) .start ∧
      Agree (fun w t => t = ") $(" ++ w) ((text "~x)").apply .start).1
        ((text ("$(" ++ String.ofList "$k::or dflt=(0)".toList ++ ")" ++ "~x)")).apply
          .start).1 := by
  intro conf text
  have value : ((text "<$(~x)$($k)").apply .start).1 = .ok "<$(5) () $(" := by decide +kernel
  have apart : ¬ OpensAcross "<$(~x)$($k)".toList "(~x)$(!~y)".toList := by decide +kernel
  have light : Light (text ("<$(~x)$($k)" ++ "(~x)$(!~y)")) .start := by
    unfold Light
    decide +kernel
  have fails : ((text "(~x)$(!~y)").apply .start).1 = .error (.requiredValueMissing "~y" "/") := by
    decide +kernel
  have balanced : Balanced "$k::or dflt=(0)".toList := by decide +kernel
  have noEscape : trimChars "$k::or dflt=(0)".toList ≠ ['#', '#', '#'] := by decide +kernel
  have read : Reference.read "$k::or dflt=(0)".toList =
      ⟨false, "$k", .node "$k", some "or dflt=(0)"⟩ := by decide +kernel
  have stands : (Reference.read "$k::or dflt=(0)".toList).StandsFor ⟨[("x", "$(5) (")], .epoch⟩ conf
      (some 0)
      .start ") $(" := by
    have leads : ((Path.navigate conf (nodeValue Eval ⟨[("x", "$(5) (")], .epoch⟩ conf) (some 0)
        "$k").apply
        .start).1 = .ok (some 1) := by decide +kernel
    have has : ((nodeValue Eval ⟨[("x", "$(5) (")], .epoch⟩ conf 1).apply .start).1 =
        .ok (some ") $(") := by
      decide +kernel
    have parsed : Macro.Call.parse "or dflt=(0)" = .ok ⟨"or", [("dflt", "(0)")]⟩ := by
      decide +kernel
    have answer : conf.provider .epoch ⟨"or", [("dflt", "(0)")]⟩ (some ") $(") = .ok ") $(" := by
      decide +kernel
    rw [read]
    exact .call (.found leads has) nofun rfl parsed answer
  have light' : Light (text ("$(" ++ String.ofList "$k::or dflt=(0)".toList ++ ")" ++ "~x)"))
      .start := by
    unfold Light
    decide +kernel
  exact ⟨value, apart, light, fails,
    (evaluateText_append _ conf _ _ "(~x)$(!~y)").1 _ _ value apart light, balanced, noEscape,
    stands, light',
    (evaluateText_append _ conf _ _ "~x)").2 _ _ balanced noEscape stands light'⟩

end ConfTree
