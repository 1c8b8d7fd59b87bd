import ConfTree.Tree.RootPath

/-!
# States of an evaluation

An evaluation keeps the nodes whose values are being evaluated, and counts its substitutions. It
ends in a result or an error, and in a state either way. What is evaluated and how is written for
any monad that has such states and errors, and `Eval` is the plain one of them.
-/

namespace ConfTree

/-- The state of an evaluation. -/
structure EvalState where
  /-- The nodes that are being evaluated, the innermost first. -/
  stack : List NodeId
  /-- The number of references that were substituted. -/
  substitutions : Nat
  deriving DecidableEq, Repr

/-- The state at the start of an evaluation. -/
def EvalState.start : EvalState := ⟨[], 0⟩

/-- A step of an evaluation. -/
abbrev Eval (α : Type) := ExceptT ConfigError (StateM EvalState) α

/-- Runs an evaluation from its start. -/
def Eval.result {α : Type} (eval : Eval α) : Except ConfigError α := (eval.run.run .start).1

/-- A monad that can put a node on the stack. -/
class Nests (m : Type → Type) where
  /-- Runs a step with a node on the stack. -/
  within {α : Type} (id : NodeId) (step : m α) : m α

/-- Runs a step with a node on the stack, which is taken off again however the step ends. -/
def Eval.within {α : Type} (id : NodeId) (step : Eval α) : Eval α :=
  ExceptT.mk fun state =>
    let (result, after) := step.run.run { state with stack := id :: state.stack }
    (result, { after with stack := after.stack.tail })

instance : Nests Eval := ⟨Eval.within⟩

/-- The greatest number of substitutions in an evaluation. -/
def maxSubstitutions : Nat := 4096

/-- The greatest number of nodes on the stack. -/
def maxDepth : Nat := 256

end ConfTree
