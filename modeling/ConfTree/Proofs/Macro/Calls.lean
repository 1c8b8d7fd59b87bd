import ConfTree.Macro.Call
import ConfTree.Proofs.Path.Spelling

/-!
# How calls are written

A call is written as its name and its arguments, with blanks in front of each argument. An argument
is its key with the value in quotes behind an equals sign, or the key alone. The text is cut at the
blanks that stand outside of quotes: the scan is `Unbroken` by an argument, whatever its value
holds, and a word is cut up once more at its first equals sign. So the call that is read back has
the name and the arguments that were written (`parse_written`).
-/

namespace ConfTree.Macro

open ConfTree.Text ConfTree.Path

variable {a : String × String} {arguments : List (String × String)} {cs ds text word : List Char}

/-! ## Written calls -/

/-- The text can stand in a call as it is: it is not empty and has no blanks and no quotes. -/
structure IsBare (s : String) : Prop where
  nonempty : s ≠ ""
  chars : ∀ c ∈ s.toList, isBlank c = false ∧ ¬ IsQuote c

instance (s : String) : Decidable (IsBare s) :=
  decidable_of_iff
    (s ≠ "" ∧ (s.toList.all fun c => !isBlank c && !decide (IsQuote c)) = true) <| by
      simp only [List.all_eq_true, Bool.and_eq_true, Bool.not_eq_true', decide_eq_false_iff_not]
      exact ⟨fun h => ⟨h.1, h.2⟩, fun h => ⟨h.nonempty, h.chars⟩⟩

/-- A key and a value that can be written: the key is bare and has no equals sign, and there is a
quote that is not in the value. -/
structure IsArgument (a : String × String) : Prop where
  bare : IsBare a.1
  single : '=' ∉ a.1.toList
  quotable : ∃ q, IsQuote q ∧ q ∉ a.2.toList

/-- The word writes the key and the value. -/
inductive WritesArgument : String × String → List Char → Prop
  | quoted {key value : String} {q : Char} (hq : IsQuote q) (free : q ∉ value.toList) :
    WritesArgument (key, value) (key.toList ++ '=' :: quotedChars q value)
  | alone {key : String} : WritesArgument (key, "") key.toList

/-- The text writes the arguments in order, each with blanks in front of it. -/
inductive WritesArguments : List (String × String) → List Char → Prop
  | nil : WritesArguments [] []
  | cons {a : String × String} {arguments : List (String × String)} {word text : List Char}
    (blanks : List Char) (gap : blanks ≠ []) (blank : ∀ c ∈ blanks, isBlank c = true)
    (first : WritesArgument a word) (others : WritesArguments arguments text) :
    WritesArguments (a :: arguments) (blanks ++ (word ++ text))

/-- Arguments that can be written have a text. -/
lemma exists_writesArguments (fit : ∀ a ∈ arguments, IsArgument a) :
    ∃ text, WritesArguments arguments text := by
  induction arguments with
  | nil => exact ⟨[], .nil⟩
  | cons a arguments ih =>
    obtain ⟨first, others⟩ := List.forall_mem_cons.1 fit
    obtain ⟨text, written⟩ := ih others
    obtain ⟨q, hq, free⟩ := first.quotable
    have blank : ∀ c ∈ [' '], isBlank c = true := List.forall_mem_singleton.2 rfl
    exact ⟨_, .cons [' '] (by simp) blank (.quoted hq free) written⟩

/-! ## Words -/

/-- The scan passes over the text without a cut, and outside of quotes at its end. -/
def Unbroken (cs : List Char) : Prop :=
  ∀ current rest, wordsFrom none current (cs ++ rest) = wordsFrom none (cs.reverse ++ current) rest

/-- Texts that nothing breaks are one such text. -/
lemma Unbroken.append (h : Unbroken cs) (k : Unbroken ds) : Unbroken (cs ++ ds) := by
  intro current rest
  rw [List.append_assoc, h, k, List.reverse_append, List.append_assoc]

/-- Characters that are neither blank nor quotes are passed over. -/
lemma Unbroken.of_chars (h : ∀ c ∈ cs, isBlank c = false ∧ ¬ IsQuote c) : Unbroken cs := by
  induction cs with
  | nil => exact fun _ _ => rfl
  | cons c cs ih =>
    obtain ⟨⟨solid, other⟩, others⟩ := List.forall_mem_cons.1 h
    intro current rest
    rw [List.cons_append, wordsFrom]
    simp only [if_neg (mt isQuote_iff.1 other), solid, Bool.false_eq_true, if_false,
      ih others (c :: current) rest, List.reverse_cons, List.append_assoc, List.singleton_append]

/-- Nothing breaks a bare word. -/
lemma IsBare.unbroken {s : String} (h : IsBare s) : Unbroken s.toList := .of_chars h.chars

/-- Between quotes, everything but the quote is passed over. -/
lemma wordsFrom_hidden {q : Char} (free : q ∉ cs) (current rest : List Char) :
    wordsFrom (some q) current (cs ++ rest) = wordsFrom (some q) (cs.reverse ++ current) rest := by
  induction cs generalizing current with
  | nil => rfl
  | cons c cs ih =>
    obtain ⟨first, others⟩ := List.ne_and_not_mem_of_not_mem_cons free
    rw [List.cons_append, wordsFrom]
    simp only [if_neg (Ne.symm first), ih others, List.reverse_cons, List.append_assoc,
      List.singleton_append]

/-- A text in quotes that are not in it is passed over. -/
lemma Unbroken.quoted {q : Char} (hq : IsQuote q) {value : String} (free : q ∉ value.toList) :
    Unbroken (quotedChars q value) := by
  intro current rest
  rw [quotedChars, List.cons_append, List.append_assoc, wordsFrom]
  simp only [if_pos (isQuote_iff.2 hq)]
  rw [wordsFrom_hidden free, List.singleton_append, wordsFrom]
  simp

/-- Nothing breaks an argument as it is written. -/
lemma WritesArgument.unbroken (h : WritesArgument a word) (fit : IsArgument a) :
    Unbroken word := by
  cases h with
  | quoted hq free =>
    have equals : Unbroken ['='] := .of_chars (by simp [IsQuote]; decide)
    exact fit.bare.unbroken.append (equals.append (.quoted hq free))
  | alone => exact fit.bare.unbroken

/-- An argument is written with a character at least. -/
lemma WritesArgument.ne_nil (h : WritesArgument a word) (fit : IsArgument a) : word ≠ [] := by
  cases h with
  | quoted => simp
  | alone => exact fun e => fit.bare.nonempty (String.toList_eq_nil_iff.1 e)

/-- A blank is none of the quotes that the scan looks for. -/
lemma unquoted_of_blank {c : Char} (blank : isBlank c = true) :
    ¬ (c = '\'' || c = '"') = true := by
  intro quote
  rw [(isQuote_iff.1 quote).solid] at blank
  cases blank

/-- Blanks in front of a word are passed over. -/
lemma wordsFrom_padded {blanks : List Char} (blank : ∀ c ∈ blanks, isBlank c = true)
    (rest : List Char) : wordsFrom none [] (blanks ++ rest) = wordsFrom none [] rest := by
  induction blanks with
  | nil => rfl
  | cons c blanks ih =>
    obtain ⟨first, others⟩ := List.forall_mem_cons.1 blank
    rw [List.cons_append, wordsFrom]
    simp only [if_neg (unquoted_of_blank first), first, if_true, List.isEmpty_nil, ih others]

/-- A blank ends a word. -/
lemma wordsFrom_cut {c : Char} {current : List Char} (blank : isBlank c = true)
    (started : current ≠ []) (rest : List Char) :
    wordsFrom none current (c :: rest) = current.reverse :: wordsFrom none [] rest := by
  rw [wordsFrom]
  simp only [if_neg (unquoted_of_blank blank), blank, if_true, List.isEmpty_iff, if_neg started]

/-- Blanks end a word. -/
lemma wordsFrom_blanks {blanks current : List Char} (gap : blanks ≠ [])
    (blank : ∀ c ∈ blanks, isBlank c = true) (started : current ≠ []) (rest : List Char) :
    wordsFrom none current (blanks ++ rest) = current.reverse :: wordsFrom none [] rest := by
  obtain ⟨c, blanks, rfl⟩ := List.exists_cons_of_ne_nil gap
  obtain ⟨first, others⟩ := List.forall_mem_cons.1 blank
  rw [List.cons_append, wordsFrom_cut first started, wordsFrom_padded others]

/-! ## Arguments -/

/-- A bare text is trimmed already. -/
lemma IsBare.trimChars_eq {s : String} (h : IsBare s) : trimChars s.toList = s.toList :=
  (tight_of_solid fun c hc => (h.chars c hc).1).trimChars_eq

/-- A word is taken for the argument that it writes. -/
lemma WritesArgument.argumentOf_eq (h : WritesArgument a word) (fit : IsArgument a) :
    argumentOf word = a := by
  cases h with
  | @quoted key value q hq free =>
    obtain ⟨left, cut⟩ := takeWhile_ne fit.single (quotedChars q value)
    rw [argumentOf, cut]
    simp only [left, fit.bare.trimChars_eq, (tight_quotedChars hq value).trimChars_eq,
      unquote_quotedChars hq, String.ofList_toList]
  | @alone key =>
    have uncut : key.toList.dropWhile (· != '=') = [] :=
      List.dropWhile_eq_nil_iff.2 fun c hc => bne_iff_ne.2 fun e => fit.single (e ▸ hc)
    rw [argumentOf, uncut]
    simp only [String.ofList_toList]

/-- Written arguments end the word in front of them, and their words are taken for them. -/
lemma WritesArguments.wordsFrom_eq (written : WritesArguments arguments text)
    (fit : ∀ a ∈ arguments, IsArgument a) {current : List Char} (started : current ≠ []) :
    ∃ words, wordsFrom none current text = current.reverse :: words ∧
      words.map argumentOf = arguments := by
  -- An argument that was scanned is the word in front of the next ones.
  induction written generalizing current with
  | nil => exact ⟨[], by simp [wordsFrom, started], rfl⟩
  | @cons a arguments word text blanks gap blank first others ih =>
    obtain ⟨fitFirst, fitOthers⟩ := List.forall_mem_cons.1 fit
    have nonempty : word.reverse ≠ [] := by simpa using first.ne_nil fitFirst
    obtain ⟨words, cut, taken⟩ := ih fitOthers nonempty
    refine ⟨word :: words, ?_, ?_⟩
    · rw [wordsFrom_blanks gap blank started, first.unbroken fitFirst, List.append_nil, cut,
        List.reverse_reverse]
    · rw [List.map_cons, first.argumentOf_eq fitFirst, taken]

/-- A call is read back as it is written: the name and the arguments in order, each with blanks in
front of it and its value in quotes that are not in the value, or without a value. The value that is
found for a key is that of the first argument whose key is the same but for the case of letters. -/
theorem parse_written {name : String} (bare : IsBare name) {arguments : List (String × String)}
    (fit : ∀ a ∈ arguments, IsArgument a) :
    (∃ text, WritesArguments arguments text) ∧
      ∀ text, WritesArguments arguments text →
        ∃ call, Call.parse (name ++ String.ofList text) = .ok call ∧
          call.name = name ∧ call.arguments = arguments ∧
          ∀ k value, call.get? k = some value ↔
            ∃ before key after, arguments = before ++ (key, value) :: after ∧
              sameName key k = true ∧ ∀ a ∈ before, sameName a.1 k = false := by
  refine ⟨exists_writesArguments fit, fun text written => ?_⟩
  have started : name.toList.reverse ≠ [] := by
    simpa [String.toList_eq_nil_iff] using bare.nonempty
  obtain ⟨words, cut, taken⟩ := written.wordsFrom_eq fit started
  refine ⟨⟨name, arguments⟩, ?_, rfl, rfl, fun k value => ?_⟩
  · rw [Call.parse, Macro.words, String.toList_append, String.toList_ofList, bare.unbroken,
      List.append_nil, cut]
    simp only [List.reverse_reverse, String.ofList_toList, taken]
  · simp only [Call.get?, Option.map_eq_some_iff, List.find?_eq_some_iff_append]
    constructor
    · rintro ⟨⟨key, _⟩, ⟨same, before, after, split, others⟩, rfl⟩
      exact ⟨before, key, after, split, same, by simpa using others⟩
    · rintro ⟨before, key, after, split, same, others⟩
      exact ⟨(key, value), ⟨same, before, after, split, by simpa using others⟩, rfl⟩

/-- A value with blanks at its ends, an equals sign and a quote of the other kind, a key alone, an
empty value, and a key that is taken already. -/
theorem parse_written_sample :
    let call : Call := ⟨"a=b", [("fmt", " 'x' = "), ("FLAG", ""), ("Fmt", "y"), ("e", "")]⟩
    IsBare "a=b" ∧ (∀ a ∈ call.arguments, IsArgument a) ∧
      WritesArguments call.arguments "  fmt=\" 'x' = \"\tFLAG Fmt='y'\ne=''".toList ∧
      Call.parse "a=b  fmt=\" 'x' = \"\tFLAG Fmt='y'\ne=''" = .ok call ∧
      call.get? "FMT" = some " 'x' = " := by
  intro call
  have bare : ∀ s ∈ ["a=b", "fmt", "FLAG", "Fmt", "e"], IsBare s := by
    simp only [List.forall_mem_cons, List.not_mem_nil, false_imp_iff, implies_true, and_true]
    decide +kernel
  have fit : ∀ a ∈ call.arguments, IsArgument a := by
    simp only [call, List.forall_mem_cons, List.not_mem_nil, false_imp_iff, implies_true, and_true]
    refine ⟨?_, ?_, ?_, ?_⟩
    all_goals exact ⟨bare _ (by simp), by decide, '"', .inr rfl, by decide⟩
  have written : WritesArguments call.arguments "  fmt=\" 'x' = \"\tFLAG Fmt='y'\ne=''".toList :=
    .cons [' ', ' '] (by simp) (by simp [isBlank]) (.quoted (q := '"') (.inr rfl) (by decide)) <|
    .cons ['\t'] (by simp) (by simp [isBlank]) .alone <|
    .cons [' '] (by simp) (by simp [isBlank]) (.quoted (q := '\'') (.inl rfl) (by decide)) <|
    .cons ['\n'] (by simp) (by simp [isBlank]) (.quoted (q := '\'') (.inl rfl) (by decide)) .nil
  obtain ⟨read, parsed, hname, harguments, gets⟩ :=
    (parse_written (bare "a=b" (by simp)) fit).2 _ written
  obtain rfl : read = call := by
    cases read
    cases hname
    cases harguments
    rfl
  refine ⟨bare "a=b" (by simp), fit, written, parsed, (gets _ _).2 ⟨[], "fmt", _, rfl, ?_, ?_⟩⟩
  · decide
  · simp

end ConfTree.Macro
