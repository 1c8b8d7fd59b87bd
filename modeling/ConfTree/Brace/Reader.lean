import ConfTree.Brace.Lexer
import ConfTree.Tree.Edit

/-!
# Reading brace notation

A name with an optional value is followed by `{` if it opens a section; else it is an attribute. The
document is one section. A fault is reported with the line of the last token that was looked at.
-/

namespace ConfTree.Brace

/-- What a reader knows of the whole text: how many lines it has, and whether the lexer stopped at a
fault. -/
structure Source where
  lineEnds : Nat
  fault : Option Fault

/-- A fault in the line where the text `rest` is left. -/
def Source.errorBefore (source : Source) (rest : List Char) (fault : Fault) : ConfigError :=
  .unparsable .brace (.brace (1 + source.lineEnds - Brace.lineEnds rest) fault)

/-- A fault after the last token. A fault of the lexer comes first. -/
def Source.errorAtEnd (source : Source) (fault : Fault) : ConfigError :=
  source.errorBefore [] (source.fault.getD fault)

/-- The text at the front of a list of tokens. -/
def takeText (source : Source) (role : Role) :
    List Lexeme → Except ConfigError (String × List Lexeme)
  | [] => .error (source.errorAtEnd (.expected role none))
  | l :: rest =>
    match l.token.text? with
    | some text => .ok (text, rest)
    | none => .error (source.errorBefore l.rest (.expected role (some l.token)))

/-- A name with its value. -/
structure Header where
  name : String
  value : Option String
  deriving DecidableEq, Repr

/-- The name and the value, if there is one, at the front of a list of tokens. -/
def takeHeader (source : Source) (lexemes : List Lexeme) :
    Except ConfigError (Header × List Lexeme) :=
  match takeText source .name lexemes with
  | .error e => .error e
  | .ok (name, []) =>
    match source.fault with
    | some fault => .error (source.errorBefore [] fault)
    | none => .ok (⟨name, none⟩, [])
  | .ok (name, l :: rest) =>
    if l.token = .equals then
      match takeText source .value rest with
      | .error e => .error e
      | .ok (value, rest) => .ok (⟨name, some value⟩, rest)
    else .ok (⟨name, none⟩, l :: rest)

/-- A text takes at least one lexeme. -/
theorem takeText_length {source : Source} {role : Role} {lexemes rest : List Lexeme} {text : String}
    (h : takeText source role lexemes = .ok (text, rest)) : rest.length < lexemes.length := by
  unfold takeText at h
  split at h
  · cases h
  · split at h
    · cases h; simp
    · cases h

/-- A header takes at least one token. -/
theorem takeHeader_length {source : Source} {lexemes rest : List Lexeme} {header : Header}
    (h : takeHeader source lexemes = .ok (header, rest)) : rest.length < lexemes.length := by
  unfold takeHeader at h
  split at h
  · cases h
  · rename_i ht
    have := takeText_length ht
    split at h
    · cases h
    · cases h; exact this
  · rename_i ht
    have ht := takeText_length ht
    simp only [List.length_cons] at ht
    split at h
    · split at h
      · cases h
      · rename_i hv
        have hv := takeText_length hv
        cases h
        omega
    · cases h
      simp only [List.length_cons]
      omega

/-- Fails if the name cannot be given to a node. -/
def checkName (source : Source) (rest : List Char) (name : String) : Edit Unit :=
  match Configuration.validName? name with
  | some _ => pure ()
  | none => throw (source.errorBefore rest (.blankName name))

/-- Reads the entries of the open sections, the innermost first, and returns what follows the brace
that closes the outermost. -/
def readEntries (source : Source) (opened : List NodeId) (lexemes : List Lexeme) :
    Edit (List Lexeme) :=
  match opened with
  | [] => pure lexemes
  | current :: outer =>
    match lexemes with
    | [] => throw (source.errorAtEnd .unclosed)
    | l :: rest =>
      if l.token = .closing then readEntries source outer rest
      else
        match h : takeHeader source (l :: rest) with
        | .error e => throw e
        | .ok (header, []) => do
          if let some fault := source.fault then throw (source.errorBefore [] fault)
          checkName source [] header.name
          let _ ← Edit.addAttribute current header.name header.value
          throw (source.errorAtEnd .unclosed)
        | .ok (header, next :: after) => do
          have := takeHeader_length h
          checkName source next.rest header.name
          if next.token = .opening then
            let id ← Edit.addSection current header.name header.value
            readEntries source (id :: current :: outer) after
          else
            let _ ← Edit.addAttribute current header.name header.value
            readEntries source (current :: outer) (next :: after)
termination_by lexemes.length
decreasing_by all_goals simp_all <;> omega

/-- Fails if anything follows the document. -/
def checkEnd (source : Source) : List Lexeme → Except ConfigError Unit
  | l :: _ => .error (source.errorBefore l.rest (.extra l.token))
  | [] =>
    match source.fault with
    | some fault => .error (source.errorBefore [] fault)
    | none => .ok ()

/-- Reads a document. -/
def read (text : String) : Except ConfigError Configuration := do
  let cs := text.toList
  let (lexemes, fault) := lex cs
  let source : Source := ⟨lineEnds cs, fault⟩
  let (header, rest) ← takeHeader source lexemes
  match rest with
  | [] => throw (source.errorAtEnd .rootNotSection)
  | l :: rest =>
    if l.token ≠ .opening then throw (source.errorBefore l.rest .rootNotSection)
    let body : Edit (List Lexeme) := do
      Edit.setValue Configuration.root header.value
      readEntries source [Configuration.root] rest
    let (outcome, conf) := body.apply (.withRoot header.name)
    let rest ← outcome
    checkEnd source rest
    return conf

end ConfTree.Brace
