import ConfTree.Evaluation.Value
import Mathlib.Tactic.Lemma

/-!
# What evaluation sees of the process

Evaluations look at the state of the process in two places: where a reference asks for a variable,
and there only through the environment of the configuration, and where a macro is called, which may
look at the clock. So if the environment has the same variables for two states of the process at one
instant (`SameVariables`), then every value and every navigation is the same for both
(`SameVariables.value?`, `SameVariables.navigate`).
-/

namespace ConfTree

variable {p q : Host} {conf : Configuration}

/-- For both states of the process, references to variables have the same answers, and the clock
shows the same. -/
structure SameVariables (p q : Host) (conf : Configuration) : Prop where
  alike : conf.environment q = conf.environment p
  instant : q.instant = p.instant

namespace SameVariables

variable (h : SameVariables p q conf)

include h

/-- A reference is resolved alike. -/
lemma resolve (valueOf : Path.ValueOf Eval) (context : Option NodeId) (r : Reference) :
    r.resolve q conf valueOf context = r.resolve p conf valueOf context := by
  have input : r.target.input q conf valueOf context = r.target.input p conf valueOf context := by
    rw [Target.input.eq_def, Target.input.eq_def, h.alike]
  rw [Reference.resolve, Reference.resolve, input, h.instant]

/-- Pieces are joined alike. -/
lemma joinPieces (valueOf : Path.ValueOf Eval) (context : Option NodeId) (text : String)
    (ps : List Piece) : joinPieces q conf valueOf context text ps =
      joinPieces p conf valueOf context text ps := by
  induction ps with
  | nil => rfl
  | cons piece ps ih =>
    cases piece with
    | unclosed => rfl
    | _ => simp only [ConfTree.joinPieces, h.resolve, ih]

/-- A text is evaluated alike. -/
lemma evaluateText (valueOf : Path.ValueOf Eval) (context : Option NodeId) (text : String) :
    evaluateText q conf valueOf context text = evaluateText p conf valueOf context text := by
  rw [ConfTree.evaluateText, ConfTree.evaluateText, h.joinPieces]

/-- A node is evaluated alike, however much room is left on the stack. -/
lemma nodeValueWithin (room : Nat) : nodeValueWithin Eval q conf room =
    nodeValueWithin Eval p conf room := by
  induction room with
  | zero =>
    funext id
    rw [nodeValueWithin.eq_def, nodeValueWithin.eq_def Eval p]
  | succ room ih =>
    funext id
    rw [nodeValueWithin.eq_def, nodeValueWithin.eq_def Eval p]
    simp only [ih, h.evaluateText]

/-- A node is evaluated alike. -/
lemma nodeValue : nodeValue Eval q conf = nodeValue Eval p conf := by
  funext id
  rw [ConfTree.nodeValue, ConfTree.nodeValue]
  simp only [h.nodeValueWithin]

/-- A node has the same value. -/
lemma value? (id : NodeId) : conf.value? q id = conf.value? p id := by
  rw [Configuration.value?, Configuration.value?, h.nodeValue]

/-- A node, or none, has the same value. -/
lemma valueOf? (node : Option NodeId) : conf.valueOf? q node = conf.valueOf? p node := by
  cases node with
  | none => rfl
  | some id => exact h.value? id

/-- A path leads to the same node. -/
lemma navigate (start : Option NodeId) (path : String) :
    conf.navigate q start path = conf.navigate p start path := by
  rw [Configuration.navigate, Configuration.navigate, h.nodeValue]

/-- A text is evaluated to the same text at each node. -/
lemma evaluate (node : Option NodeId) (text : String) :
    conf.evaluate q node text = conf.evaluate p node text := by
  rw [Configuration.evaluate, Configuration.evaluate, h.nodeValue]
  simp only [h.evaluateText]

end SameVariables

end ConfTree
