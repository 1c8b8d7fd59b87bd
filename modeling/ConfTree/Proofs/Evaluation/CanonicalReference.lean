import ConfTree.Proofs.Evaluation.Outcome
import ConfTree.Proofs.Path.Canonical

/-!
# References by canonical paths

The canonical path of a node can stand in a reference, if its parentheses are balanced and it does
not look like a macro call. The reference then stands for the value of the node, wherever it is
evaluated (`evaluate_rootPath`): the end of the reference is the parenthesis behind the path
(`pieces_surrounded`), its body is read as a path and nothing else (`read_path`), and the path leads
to the node.
-/

namespace ConfTree

open ConfTree.Text

/-! ## The end of a reference -/

/-- Every parenthesis of the text is closed in the text, and none before it is opened. -/
structure Balanced (cs : List Char) : Prop where
  opened : ∀ p, p <+: cs → p.count ')' ≤ p.count '('
  closed : cs.count ')' = cs.count '('

instance (cs : List Char) : Decidable (Balanced cs) :=
  decidable_of_iff ((∀ p ∈ cs.inits, p.count ')' ≤ p.count '(') ∧ cs.count ')' = cs.count '(')
    ⟨fun h => ⟨fun p hp => h.1 p ((List.mem_inits _ _).2 hp), h.2⟩,
      fun h => ⟨fun p hp => h.opened p ((List.mem_inits _ _).1 hp), h.closed⟩⟩

/-- A text without parentheses is balanced. -/
lemma balanced_of_notMem {cs : List Char} (opening : '(' ∉ cs) (closing : ')' ∉ cs) :
    Balanced cs := by
  refine ⟨fun p hp => ?_, ?_⟩
  · rw [List.count_eq_zero.2 fun hc => closing (hp.subset hc)]
    exact Nat.zero_le _
  · rw [List.count_eq_zero.2 opening, List.count_eq_zero.2 closing]

/-- In a reference, a character that is no parenthesis goes to the body. -/
lemma piecesFrom_other {c : Char} (opens : c ≠ '(') (closes : c ≠ ')') (depth : Nat)
    (body cs : List Char) :
    piecesFrom (some (depth, body)) (c :: cs) = piecesFrom (some (depth, c :: body)) cs := by
  rw [piecesFrom.eq_def]
  simp only [if_neg opens, if_neg closes]

/-- In a reference, a text is passed over if it closes no more parentheses than are open. -/
lemma piecesFrom_append {depth : Nat} {cs : List Char}
    (opened : ∀ p, p <+: cs → p.count ')' ≤ depth + p.count '(') (body rest : List Char) :
    piecesFrom (some (depth, body)) (cs ++ rest) =
      piecesFrom (some (depth + cs.count '(' - cs.count ')', cs.reverse ++ body)) rest := by
  induction cs generalizing depth body with
  | nil => rfl
  | cons c cs ih =>
    have first : [c].count ')' ≤ depth + [c].count '(' := opened [c] (by simp)
    have later : ∀ p, p <+: cs → (c :: p).count ')' ≤ depth + (c :: p).count '(' :=
      fun p hp => opened (c :: p) (List.cons_prefix_cons.2 ⟨rfl, hp⟩)
    rw [List.reverse_cons, List.append_assoc, List.cons_append]
    by_cases opens : c = '('
    · subst opens
      simp only [List.count_cons_self, List.count_cons_of_ne (show '(' ≠ ')' by decide)] at later ⊢
      refine (@ih (depth + 1) (fun p hp => ?_) _).trans ?_
      · have := later p hp
        omega
      · rw [Nat.add_right_comm]
        rfl
    · by_cases closes : c = ')'
      · subst closes
        simp only [List.count_cons_self, List.count_cons_of_ne opens,
          List.count_nil] at first later ⊢
        obtain ⟨n, rfl⟩ : ∃ n, depth = n + 1 := ⟨depth - 1, by omega⟩
        refine (@ih n (fun p hp => ?_) _).trans ?_
        · have := later p hp
          omega
        · rw [Nat.add_right_comm, Nat.add_sub_add_right]
          rfl
      · simp only [List.count_cons_of_ne opens, List.count_cons_of_ne closes] at later ⊢
        rw [piecesFrom_other opens closes, ih later]
        rfl

/-- A reference with a balanced body is a single piece between those of the texts around it. -/
lemma pieces_surrounded {before cs : List Char} (noMark : '$' ∉ before) (balanced : Balanced cs)
    (after : List Char) : pieces (before ++ '$' :: '(' :: (cs ++ ')' :: after)) =
      before.map .char ++ .ofBody cs :: pieces after := by
  induction before with
  | nil =>
    have opened : ∀ p, p <+: cs → p.count ')' ≤ 0 + p.count '(' := by
      intro p hp
      rw [Nat.zero_add]
      exact balanced.opened p hp
    rw [List.nil_append, pieces, piecesFrom, piecesFrom_append opened, balanced.closed,
      Nat.zero_add, Nat.sub_self, List.append_nil]
    change Piece.ofBody cs.reverse.reverse :: pieces after = _
    rw [List.reverse_reverse]
    rfl
  | cons c before ih =>
    obtain ⟨other, noMark⟩ := not_or.1 (mt List.mem_cons.2 noMark)
    rw [List.cons_append, pieces, piecesFrom, ← pieces, ih noMark]
    · rfl
    · rintro _ rfl
      exact absurd rfl other

/-! ## The body of a reference -/

/-- A text without a double colon holds no call. -/
lemma splitAtCall_eq {cs : List Char} (noCall : ¬ [':', ':'] <:+: cs) :
    splitAtCall cs = (cs, none) := by
  fun_induction splitAtCall cs with
  | case1 cs => exact absurd ⟨[], cs, rfl⟩ noCall
  | case2 c cs _ before call found ih =>
    have rest : ¬ [':', ':'] <:+: cs :=
      fun inside => noCall (inside.trans (List.suffix_cons c cs).isInfix)
    rw [ih rest] at found
    cases found
    rfl
  | case3 => rfl

/-- A text is cut at its first double colon. -/
lemma splitAtCall_append {cs : List Char} (first : ¬ [':', ':'] <:+: cs ++ [':'])
    (call : List Char) : splitAtCall (cs ++ ':' :: ':' :: call) = (cs, some call) := by
  induction cs with
  | nil => rfl
  | cons c cs ih =>
    have rest := ih fun inside => first (inside.trans (List.suffix_cons c _).isInfix)
    rw [List.cons_append, splitAtCall, rest]
    -- A double colon in front would be the first one.
    rintro tail rfl e
    refine first (List.IsPrefix.isInfix ?_)
    cases cs with
    | nil => exact List.prefix_rfl
    | cons d ds =>
      cases e
      exact ⟨ds ++ [':'], rfl⟩

/-- A path from the root is read as a reference to a node. -/
lemma read_path {cs : List Char} (tight : Tight ('/' :: cs))
    (noCall : ¬ [':', ':'] <:+: '/' :: cs) :
    Reference.read ('/' :: cs) =
      ⟨false, String.ofList ('/' :: cs), .node (String.ofList ('/' :: cs)), none⟩ := by
  rw [Reference.read, splitAtCall_eq noCall]
  dsimp only
  rw [tight.trimChars_eq]
  rfl

/-! ## Texts with a reference -/

/-- A text without the mark opens no reference. -/
lemma hasReference_of_noMark {cs : List Char} (noMark : '$' ∉ cs) : hasReference cs = false := by
  fun_induction hasReference cs with
  | case1 => exact absurd List.mem_cons_self noMark
  | case2 c cs _ ih => exact ih fun hc => noMark (List.mem_cons_of_mem _ hc)
  | case3 => rfl

/-- A text with a single reference is evaluated to what the reference stands for between the texts
around it, with one substitution counted. -/
lemma evaluateText_reference {process : Host} {conf : Configuration} {valueOf : Path.ValueOf Eval}
    {context : Option NodeId} {before cs after : List Char} (noMark : '$' ∉ before)
    (balanced : Balanced cs) (noEscape : trimChars cs ≠ ['#', '#', '#'])
    (plain : hasReference after = false) {text : String}
    (chars : text.toList = before ++ '$' :: '(' :: (cs ++ ')' :: after)) :
    evaluateText process conf valueOf context text = (do
      countSubstitution text
      let value ← (Reference.read cs).resolve process conf valueOf context
      return String.ofList (before ++ (value.toList ++ after))) := by
  have body : Piece.ofBody cs = .reference cs := if_neg noEscape
  rw [evaluateText, chars, pieces_surrounded noMark balanced, body, pieces_of_plain plain,
    joinPieces_append]
  simp only [joinPieces, joinPieces_chars, bind_assoc, pure_bind]

namespace Configuration

variable {conf : Configuration}

/-- A text that is a single reference is evaluated as the reference is resolved, with one
substitution counted. -/
lemma evaluate_reference (process : Host) (node : Option NodeId) {cs : List Char}
    (balanced : Balanced cs) (noEscape : trimChars cs ≠ ['#', '#', '#'])
    {outcome : Except ConfigError String} {s : EvalState}
    (resolves : ((Reference.read cs).resolve process conf (nodeValue Eval process conf)
      (node.bind fun id => if conf.isSection id then some id else conf.parent? id)).apply ⟨[], 1⟩ =
        (outcome, s)) :
    conf.evaluate process node ("$(" ++ String.ofList cs ++ ")") = outcome := by
  have chars : ("$(" ++ String.ofList cs ++ ")").toList =
      [] ++ '$' :: '(' :: (cs ++ ')' :: []) := by simp
  have counted : (countSubstitution ("$(" ++ String.ofList cs ++ ")") : Eval Unit).apply .start =
      (.ok (), ⟨[], 1⟩) := Eval.apply_countSubstitution_ok _ (by decide)
  rw [evaluate, evaluateText_reference (by simp) balanced noEscape rfl chars]
  change (Eval.apply _ .start).1 = _
  rw [Eval.apply_bind_ok counted, Eval.apply_bind, resolves]
  cases outcome with
  | error e => rfl
  | ok text => simp

/-- A path from the root in a reference stands for the verbatim value of the node that it leads to,
if that opens no reference of its own, and for nothing if it leads to none. -/
lemma evaluate_path (process : Host) (node : Option NodeId) {cs : List Char}
    (tight : Tight ('/' :: cs)) (noCall : ¬ [':', ':'] <:+: '/' :: cs)
    (balanced : Balanced ('/' :: cs))
    {target : Option NodeId}
    (leads : ∀ start,
      Path.navigate conf (nodeValue Eval process conf) start (String.ofList ('/' :: cs)) =
      pure target)
    (literal : ∀ id ∈ target, ∀ raw ∈ conf.verbatim? id, hasReference raw.toList = false) :
    conf.evaluate process node ("$(" ++ String.ofList ('/' :: cs) ++ ")") =
      .ok ((target.bind conf.verbatim?).getD "") := by
  refine evaluate_reference (s := ⟨[], 1⟩) process node balanced ?_ ?_
  · rw [tight.trimChars_eq]
    exact fun escape => absurd (List.cons.inj escape).1 (by decide)
  · rw [read_path tight noCall]
    simp only [Reference.resolve, Target.input, leads, pure_bind]
    cases target with
    | none => rfl
    | some id =>
      simp only [nodeValue_literal (literal id rfl), pure_bind]
      rfl

/-- A canonical path in a reference stands for the verbatim value of its node, if that opens no
reference of its own. -/
theorem evaluate_rootPath (process : Host) (h : Reachable conf) (fits : Addressable conf)
    {id : NodeId} {d : NodeData} (live : conf.live? id = some d)
    (literal : ∀ raw ∈ d.value, hasReference raw.toList = false)
    (noCall : ¬ [':', ':'] <:+: (conf.rootPath id).toList)
    (balanced : Balanced (conf.rootPath id).toList) (node : Option NodeId) :
    conf.evaluate process node ("$(" ++ conf.rootPath id ++ ")") = .ok (d.value.getD "") := by
  obtain ⟨cs, path, tight⟩ := rootPath_slash h.wellFormed fits live
  have leads := navigate_rootPath_eq h.wellFormed fits live (nodeValue Eval process conf)
  rw [path] at leads noCall balanced ⊢
  rw [String.toList_ofList] at noCall balanced
  have verbatim : conf.verbatim? id = d.value := by rw [verbatim?, live]; rfl
  have value := evaluate_path process node tight noCall balanced leads (by
    rintro _ ⟨⟩
    rwa [verbatim])
  rwa [Option.bind_some, verbatim] at value

/-- Names that hold the marks of references, of paths and of texts in quotes: a section with a
value, read from an attribute of its own, and this attribute, which has no value, read from
nowhere. -/
theorem evaluate_rootPath_marks :
    let conf := (withRoot "base").operateAll
      [(.bare, .addSection 0 "f(x) '!~#\"$(###)" (some "one)")),
       (.bare, .addAttribute 1 "~(:)$ " none)]
    Reachable conf ∧ Addressable conf ∧
      (conf.live? 1).map (·.value) = some (some "one)") ∧
      (conf.live? 2).map (·.value) = some none ∧
      (∀ id ∈ [1, 2], ¬ [':', ':'] <:+: (conf.rootPath id).toList ∧
        Balanced (conf.rootPath id).toList) ∧
      conf.evaluate .bare (some 2) ("$(" ++ conf.rootPath 1 ++ ")") = .ok "one)" ∧
      conf.evaluate .bare none ("$(" ++ conf.rootPath 2 ++ ")") = .ok "" := by
  intro conf
  have reach : Reachable conf :=
    (Reachable.withRoot "base").operateAll _ (by simp [Operation.others])
  have fits : Addressable conf := by
    unfold Addressable
    decide +kernel
  have one : (conf.live? 1).map (·.value) = some (some "one)") := by decide +kernel
  have two : (conf.live? 2).map (·.value) = some none := by decide +kernel
  have paths : ∀ id ∈ [1, 2], ¬ [':', ':'] <:+: (conf.rootPath id).toList ∧
      Balanced (conf.rootPath id).toList := by decide +kernel
  obtain ⟨d, live, value⟩ := Option.map_eq_some_iff.1 one
  obtain ⟨e, live', value'⟩ := Option.map_eq_some_iff.1 two
  obtain ⟨noCall, balanced⟩ := paths 1 (by decide)
  obtain ⟨noCall', balanced'⟩ := paths 2 (by decide)
  have first := evaluate_rootPath .bare reach fits live
    (by rw [value]; decide) noCall balanced (some 2)
  have second := evaluate_rootPath .bare reach fits live'
    (by rw [value']; decide) noCall' balanced' none
  rw [value] at first
  rw [value'] at second
  exact ⟨reach, fits, one, two, paths, first, second⟩

end Configuration

end ConfTree
