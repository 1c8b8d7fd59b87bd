import ConfTree.Macro.Builtin
import ConfTree.Proofs.Text.Truth
import ConfTree.Proofs.Tree.Change
import Mathlib.Algebra.Ring.Int.Defs

/-!
# Conversions of values

A text is taken for an integer exactly if it is a sign and digits that denote one of 64 bits
(`Scalar.ofText_eq_int_iff`). What a text is taken for is found again in its own text, unless both
are numbers with a point (`Scalar.toText_ofText_toText`): the text of such a number is never taken
for an integer or a truth value (`Scalar.ofText_render`). So what the macro `as` makes of a value it
leaves alone when it is called again (`Macro.conversion_settles`).
-/

namespace ConfTree

open ConfTree.Text

variable {s : String} {cs : List Char} {i : Int} {b : Bool}

/-! ## Integers -/

/-- What spells an integer looks like one. -/
lemma looksLikeInteger_of_spells (h : SpellsInteger cs i) : looksLikeInteger cs = true := by
  unfold looksLikeInteger
  cases h with
  | unsigned filled digits =>
    split
    · cases digits '-' List.mem_cons_self
    · simpa [filled] using digits
  | negative filled digits => simpa [filled] using digits

/-- What looks like an integer spells one. -/
lemma exists_spellsInteger (h : looksLikeInteger cs = true) : ∃ i, SpellsInteger cs i := by
  unfold looksLikeInteger at h
  split at h
  · simp only [Bool.and_eq_true, Bool.not_eq_true', List.isEmpty_eq_false_iff,
      List.all_eq_true] at h
    exact ⟨_, .negative h.1 h.2⟩
  · simp only [Bool.and_eq_true, Bool.not_eq_true', List.isEmpty_eq_false_iff,
      List.all_eq_true] at h
    exact ⟨_, .unsigned h.1 h.2⟩

/-- The integer that a text looks like is the one that it denotes. -/
lemma integerSpelled?_eq_some_iff : integerSpelled? cs = some i ↔
    SpellsInteger cs i ∧ IntegerRange.signed64.holds i = true := by
  unfold integerSpelled?
  constructor
  · intro h
    split at h
    · rename_i looks
      obtain ⟨j, spells⟩ := exists_spellsInteger looks
      obtain ⟨rfl, inside⟩ := spells.read_eq_ok_iff.1 (mem_toOption.1 h)
      exact ⟨spells, inside⟩
    · cases h
  · rintro ⟨spells, inside⟩
    rw [if_pos (looksLikeInteger_of_spells spells)]
    exact mem_toOption.2 (spells.read_eq_ok_iff.2 ⟨rfl, inside⟩)

/-! ## Scalars -/

namespace Scalar

/-- The integers that texts are taken for. -/
lemma ofText_eq_int_iff : ofText s = .int i ↔
    SpellsInteger s.toList i ∧ IntegerRange.signed64.holds i = true := by
  unfold ofText
  constructor
  · intro h
    split at h
    · cases h
    split at h
    · cases h
    split at h
    · rename_i spelled
      cases h
      exact integerSpelled?_eq_some_iff.1 spelled
    · split at h <;> cases h
  · rintro ⟨spells, inside⟩
    obtain ⟨c, hc, digit⟩ := spells.exists_digit
    obtain ⟨noTrue, noFalse⟩ := sameName_of_wordless hc (wordless_of_isDigit digit)
    simp only [noTrue, noFalse, integerSpelled?_eq_some_iff.2 ⟨spells, inside⟩, if_false,
      Bool.false_eq_true]

/-- The text of a truth value is converted to it. -/
lemma ofText_truthText (b : Bool) : ofText (truthText b) = .bool b := by
  obtain ⟨isTrue, isFalse⟩ := sameName_truthText b
  rw [ofText, isTrue, isFalse]
  cases b <;> rfl

/-- A text that is taken for no other scalar is taken as it is. -/
lemma ofText_eq_text {t : String} (h : ofText s = .text t) : t = s := by
  unfold ofText at h
  split at h
  · cases h
  split at h
  · cases h
  split at h
  · cases h
  split at h
  · cases h
  · cases h
    rfl

/-- With a character that stands in no integer and in no truth value, a text is taken for a number
with a point or for itself. -/
lemma ofText_of_wordless {c : Char} (hc : c ∈ s.toList) (wordless : Wordless c)
    (noDigit : c.isDigit = false) (noSign : c ≠ '-') :
    (∃ x, ofText s = .float x) ∨ ofText s = .text s := by
  obtain ⟨noTrue, noFalse⟩ := sameName_of_wordless hc wordless
  have noInteger : integerSpelled? s.toList = none := by
    refine Option.eq_none_iff_forall_ne_some.2 fun i h => ?_
    rcases (integerSpelled?_eq_some_iff.1 h).1.digit_or_sign hc with digit | sign
    · rw [noDigit] at digit
      cases digit
    · exact noSign sign
  cases spelled : floatSpelled? s.toList with
  | some x =>
    refine .inl ⟨x, ?_⟩
    simp only [ofText, noTrue, noFalse, noInteger, spelled, if_false, Bool.false_eq_true]
  | none =>
    refine .inr ?_
    simp only [ofText, noTrue, noFalse, noInteger, spelled, if_false, Bool.false_eq_true]

/-! ## Numbers with a point -/

/-- Positional notation has digits and a point. -/
lemma positionalChars_chars {mark : Bool} {digits : List Char} {k : Int}
    (hd : ∀ c ∈ digits, c.isDigit = true) {c : Char}
    (hc : c ∈ Decimal.positionalChars mark digits k) : c.isDigit = true ∨ c = '.' := by
  have zeros {n : Nat} (hc : c ∈ List.replicate n '0') : c.isDigit = true := by
    rw [List.eq_of_mem_replicate hc]
    rfl
  unfold Decimal.positionalChars at hc
  split at hc
  · simp only [List.cons_append, List.mem_cons, List.mem_append] at hc
    rcases hc with rfl | rfl | hc | hc
    · exact .inl rfl
    · exact .inr rfl
    · exact .inl (zeros hc)
    · exact .inl (hd c hc)
  split at hc
  · rcases List.mem_append.1 hc with hc | hc
    · exact .inl (hd c (List.mem_of_mem_take hc))
    · rcases List.mem_cons.1 hc with rfl | hc
      · exact .inr rfl
      · exact .inl (hd c (List.mem_of_mem_drop hc))
  · simp only [List.mem_append] at hc
    rcases hc with (hc | hc) | hc
    · exact .inl (hd c hc)
    · exact .inl (zeros hc)
    · split at hc
      · simp only [List.mem_cons, List.not_mem_nil, or_false] at hc
        rcases hc with rfl | rfl
        · exact .inr rfl
        · exact .inl rfl
      · cases hc

/-- Where whole numbers keep their point, there is one. -/
lemma point_mem_positionalChars (digits : List Char) (k : Int) :
    '.' ∈ Decimal.positionalChars true digits k := by
  unfold Decimal.positionalChars
  split
  · simp
  split
  · simp
  · simp

/-- The magnitude of a double in a table document is positional, and a whole one keeps its point. -/
lemma magnitudeChars_eq (m : Nat) (q : Int) : ∃ digits k, (∀ c ∈ digits, c.isDigit = true) ∧
    Decimal.Layout.table.magnitudeChars m q = Decimal.positionalChars true digits k := by
  unfold Decimal.Layout.magnitudeChars
  obtain ⟨d, e⟩ := Decimal.shortest Decimal.Layout.table.tie m q
  exact ⟨_, _, fun c hc => Nat.isDigit_of_mem_toDigits (by decide) (by decide) hc, rfl⟩

/-- A double in a table document has no blanks, and it has a point or is spelled by a name. -/
lemma render_chars (x : Float) :
    (∀ c ∈ (Decimal.Layout.table.render x).toList, isBlank c = false) ∧
      ('.' ∈ (Decimal.Layout.table.render x).toList ∨
        'n' ∈ (Decimal.Layout.table.render x).toList) := by
  have solid {word : List Char} (h : word.all (fun c => !isBlank c) = true) :
      ∀ c ∈ word, isBlank c = false := by simpa using h
  -- A sign in front changes neither.
  have signed {cs : List Char} (solid : ∀ c ∈ cs, isBlank c = false)
      (mark : '.' ∈ cs ∨ 'n' ∈ cs) :
      let text := String.ofList (if Decimal.isNegative x then '-' :: cs else cs)
      (∀ c ∈ text.toList, isBlank c = false) ∧ ('.' ∈ text.toList ∨ 'n' ∈ text.toList) := by
    intro text
    simp only [text, String.toList_ofList]
    split
    · exact ⟨List.forall_mem_cons.2 ⟨rfl, solid⟩,
        mark.imp (List.mem_cons_of_mem _) (List.mem_cons_of_mem _)⟩
    · exact ⟨solid, mark⟩
  unfold Decimal.Layout.render
  by_cases noNumber : Decimal.infinityWord < Decimal.magnitudeWord x
  · simp only [if_pos noNumber]
    exact ⟨solid (by decide), .inr (by decide)⟩
  by_cases infinite : Decimal.magnitudeWord x = Decimal.infinityWord
  · simp only [if_neg noNumber, if_pos infinite]
    exact signed (solid (by decide)) (.inr (by decide))
  by_cases zero : Decimal.magnitudeWord x = 0
  · simp only [if_neg noNumber, if_neg infinite, if_pos zero]
    exact signed (solid (by decide)) (.inl (by decide))
  · simp only [if_neg noNumber, if_neg infinite, if_neg zero]
    obtain ⟨digits, k, hd, layout⟩ := magnitudeChars_eq
      (Decimal.parts (Decimal.magnitudeWord x)).1 (Decimal.parts (Decimal.magnitudeWord x)).2
    rw [layout]
    refine signed (fun c hc => ?_) (.inl (point_mem_positionalChars _ _))
    rcases positionalChars_chars hd hc with digit | rfl
    · exact isBlank_of_isDigit digit
    · rfl

/-- A float is shown by a text that is converted to a float or stays a text. -/
lemma ofText_render (x : Float) :
    (∃ y, ofText (Decimal.Layout.table.render x) = .float y) ∨
      ofText (Decimal.Layout.table.render x) = .text (Decimal.Layout.table.render x) := by
  rcases (render_chars x).2 with point | letter
  · exact ofText_of_wordless point (by decide) rfl (by decide)
  · exact ofText_of_wordless letter (by decide) rfl (by decide)

/-! ## Texts of scalars -/

/-- No blank stands around what a trimmed text is taken for. -/
lemma trim_toText_ofText (h : trim s = s) : trim (ofText s).toText = (ofText s).toText := by
  cases scalar : ofText s with
  | bool b => cases b <;> decide +kernel
  | int i => exact trim_of_tight (tight_integerText i)
  | float x => exact trim_of_tight (tight_of_solid (render_chars x).1)
  | text t =>
    rw [ofText_eq_text scalar]
    exact h

/-- What a text is taken for is found again in its own text, unless both are numbers with a
point. -/
lemma toText_ofText_toText (s : String)
    (notFloats : ¬ ∃ x y, ofText s = .float x ∧ ofText (ofText s).toText = .float y) :
    (ofText (ofText s).toText).toText = (ofText s).toText := by
  cases scalar : ofText s with
  | bool b => rw [toText, ofText_truthText, toText]
  | int i =>
    obtain ⟨-, inside⟩ := ofText_eq_int_iff.1 scalar
    rw [toText, ofText_eq_int_iff.2 ⟨spellsInteger_integerText i, inside⟩, toText]
  | float x =>
    rcases ofText_render x with ⟨y, float⟩ | text
    · rw [scalar] at notFloats
      exact absurd ⟨x, y, rfl, float⟩ notFloats
    · rw [toText, text, toText]
  | text t =>
    obtain rfl := ofText_eq_text scalar
    rw [toText, scalar, toText]

end Scalar

/-! ## The macro -/

namespace Macro

/-- A text taken for a type has no blanks around it, and is taken for the same text again. -/
lemma convert?_settles {type : TargetType} {raw result : String} (known : type ≠ .float)
    (trimmed : trim raw = raw) (h : type.convert? raw = some result)
    (notFloats : type = .auto →
      ¬ ∃ x y, Scalar.ofText raw = .float x ∧ Scalar.ofText result = .float y) :
    trim result = result ∧ type.convert? result = some result := by
  cases type with
  | text =>
    cases h
    exact ⟨trimmed, rfl⟩
  | int =>
    rw [TargetType.convert?] at h
    obtain ⟨i, read, rfl⟩ := Option.map_eq_some_iff.1 h
    have inside := holds_of_read (mem_toOption.1 read)
    refine ⟨trim_of_tight (tight_integerText i), ?_⟩
    rw [TargetType.convert?, read_integerText inside]
    rfl
  | float => exact absurd rfl known
  | bool =>
    rw [TargetType.convert?] at h
    obtain ⟨b, -, rfl⟩ := Option.map_eq_some_iff.1 h
    cases b <;> decide +kernel
  | auto =>
    cases h
    refine ⟨Scalar.trim_toText_ofText trimmed, ?_⟩
    exact congrArg some (Scalar.toText_ofText_toText raw (notFloats rfl))

/-- A conversion without `dflt` succeeds exactly if the trimmed input is of the type. -/
lemma convert_eq_ok_iff {call : Call} {input : Option String} {type : TargetType} {result : String}
    (typed : TargetType.ofName? (fold ((call.get? "type").getD "auto")) = some type)
    (noDefault : call.get? "dflt" = none) :
    convert call input = .ok result ↔ type.convert? (trim (input.getD "")) = some result := by
  unfold convert
  simp only [typed, noDefault]
  cases type.convert? (trim (input.getD "")) <;> simp

/-- The macro `as`, in any ASCII case, converts. -/
lemma builtin_as {call : Call} (named : fold call.name = "as") (fallback : Option Provider)
    (instant : Instant) (input : Option String) :
    builtin fallback instant call input = convert call input := by
  have others : "as" ≠ "now" ∧ "as" ≠ "default" ∧ "as" ≠ "or" := by decide
  simp only [builtin, named, others.1, others.2.1, others.2.2, if_false, if_true, decide_false,
    Bool.or_self, Bool.false_eq_true]

/-- A text is taken for an integer exactly if it is an optional minus sign and decimal digits that
denote an integer of 64 bits, whatever zeros they start with. The macro `as` without `dflt`, for any
type but the numbers with a point, gives its result again when it is called on it, unless what it
was called on and what it gave are both taken for numbers with a point. -/
theorem conversion_settles :
    (∀ (s : String) (i : Int), Scalar.ofText s = .int i ↔
      SpellsInteger s.toList i ∧ -2 ^ 63 ≤ i ∧ i < 2 ^ 63) ∧
    ∀ (fallback : Option Provider) (instant instant' : Instant) (call : Call) (type : TargetType)
      (input : Option String) (result : String), fold call.name = "as" →
      call.get? "dflt" = none →
      TargetType.ofName? (fold ((call.get? "type").getD "auto")) = some type → type ≠ .float →
      builtin fallback instant call input = .ok result →
      (type = .auto → ¬ ∃ x y, Scalar.ofText (trim (input.getD "")) = .float x ∧
        Scalar.ofText result = .float y) →
      builtin fallback instant' call (some result) = .ok result := by
  refine ⟨fun s i => ?_, ?_⟩
  · rw [Scalar.ofText_eq_int_iff, holds_iff]
    refine and_congr_right fun _ => and_congr_right fun _ => ?_
    omega
  · intro fallback instant instant' call type input result named noDefault typed known success
      notFloats
    rw [builtin_as named] at success ⊢
    rw [convert_eq_ok_iff typed noDefault] at success ⊢
    obtain ⟨trimmed, again⟩ := convert?_settles known (trim_trim _) success notFloats
    rw [Option.getD_some, trimmed]
    exact again

/-- A sign, zeros and blanks around an integer, without a type. -/
theorem conversion_settles_zeros :
    let call : Call := ⟨"AS", []⟩
    fold call.name = "as" ∧ call.get? "dflt" = none ∧
      TargetType.ofName? (fold ((call.get? "type").getD "auto")) = some .auto ∧
      builtin none .epoch call (some " -007\t") = .ok "-7" ∧
      Scalar.ofText (trim " -007\t") = .int (-7) ∧
      builtin none .epoch call (some "-7") = .ok "-7" := by
  intro call
  have named : fold call.name = "as" := by decide +kernel
  have noDefault : call.get? "dflt" = none := rfl
  have typed : TargetType.ofName? (fold ((call.get? "type").getD "auto")) = some .auto := by
    decide +kernel
  have integer : Scalar.ofText (trim " -007\t") = .int (-7) := by rfl
  have success : builtin none .epoch call (some " -007\t") = .ok "-7" := by
    rw [builtin_as named, convert_eq_ok_iff typed noDefault, Option.getD_some, TargetType.convert?,
      integer]
    rfl
  have notFloats : TargetType.auto = .auto → ¬ ∃ x y,
      Scalar.ofText (trim ((some " -007\t").getD "")) = .float x ∧
        Scalar.ofText "-7" = .float y := by
    rintro - ⟨x, y, float, -⟩
    cases integer.symm.trans float
  exact ⟨named, noDefault, typed, success, integer,
    conversion_settles.2 none .epoch .epoch call .auto (some " -007\t") "-7" named noDefault typed
      nofun success
      notFloats⟩

end Macro

end ConfTree
