import ConfTree.Expression.Term

/-!
# Evaluation of expressions

Integers stay exact: a difference, a product or a negation that leaves the range is a fault, a sum
that does becomes a double, and so does a quotient that is not whole. The connectives evaluate their
right side only when it decides. One quotient stops the program instead, that of the least integer
by minus one.
-/

namespace ConfTree

/-- How a computation ends that gives no result. -/
inductive Exit (ε : Type) where
  /-- It reports an error. -/
  | fails (error : ε)
  /-- It stops the program, and nothing is reported. -/
  | panics
  deriving DecidableEq, Repr

namespace Exit

variable {ε δ α : Type}

/-- The exit with what is made of its error. -/
def map (f : ε → δ) : Exit ε → Exit δ
  | fails error => fails (f error)
  | panics => panics

/-- A result that a panic does not stand in for. -/
def lift (result : Except ε α) : Except (Exit ε) α := result.mapError fails

/-- A value is lifted to itself. -/
@[simp] theorem lift_ok (a : α) : lift (.ok a : Except ε α) = .ok a := rfl

/-- An error is lifted to the exit with it. -/
@[simp] theorem lift_error (error : ε) :
    lift (.error error : Except ε α) = .error (fails error) := rfl

/-- A result is lifted to a value exactly if it is the value. -/
theorem lift_eq_ok {result : Except ε α} {a : α} : lift result = .ok a ↔ result = .ok a := by
  cases result with
  | error => exact ⟨nofun, nofun⟩
  | ok => exact ⟨fun eq => congrArg Except.ok (Except.ok.inj eq), congrArg lift⟩

end Exit

end ConfTree

namespace ConfTree.Expression

/-- What comes out of an evaluation. -/
abbrev Result := Except (Exit Fault) Value

/-- An integer of the range, or a fault. -/
def checked (i : Int) : Result :=
  if Text.IntegerRange.signed64.holds i then .ok (.int i) else .error (.fails .overflow)

/-- The sum of numbers, or the texts of the values one after the other. -/
def Value.add (l r : Value) : Value :=
  match l, r with
  | .int a, .int b =>
    if Text.IntegerRange.signed64.holds (a + b) then .int (a + b)
    else .float (Decimal.ofInt a + Decimal.ofInt b)
  | l, r =>
    match l.toFloat?, r.toFloat? with
    | some x, some y => .float (x + y)
    | _, _ => .text (l.toText ++ r.toText)

/-- The four other operations. -/
inductive Arithmetic where
  | sub | mul | div | rem
  deriving DecidableEq, Repr

/-- The remainder of a division on the machine. There is none if the quotient leaves the range. -/
def remainder? (a b : Int) : Option Int :=
  if Text.IntegerRange.signed64.holds (a.tdiv b) then some (a.tmod b) else none

/-- An operation on integers. A quotient that is not whole is a double, which is found out by the
remainder before the quotient is taken: where there is no remainder, the division panics. -/
def Arithmetic.onInts (op : Arithmetic) (a b : Int) : Result :=
  match op with
  | .sub => checked (a - b)
  | .mul => checked (a * b)
  | .div =>
    if b = 0 then .error (.fails .divisionByZero)
    else
      match remainder? a b with
      | none => .error .panics
      | some r =>
        if r ≠ 0 then .ok (.float (Decimal.ofInt a / Decimal.ofInt b)) else checked (a.tdiv b)
  | .rem =>
    if b = 0 then .error (.fails .divisionByZero)
    else
      match remainder? a b with
      | none => .error (.fails .overflow)
      | some r => .ok (.int r)

/-- The operation has a divisor. -/
def Arithmetic.divides : Arithmetic → Bool
  | .div | .rem => true
  | .sub | .mul => false

/-- An operation on doubles. -/
def Arithmetic.onFloats (op : Arithmetic) (x y : Float) : Float :=
  match op with
  | .sub => x - y
  | .mul => x * y
  | .div => x / y
  | .rem => Decimal.remainder x y

/-- An operation on values, which must be numbers. -/
def Arithmetic.apply (op : Arithmetic) (l r : Value) : Result :=
  match l, r with
  | .int a, .int b => op.onInts a b
  | l, r =>
    match l.toFloat?, r.toFloat? with
    | some x, some y =>
      if op.divides && r.isZero then .error (.fails .divisionByZero)
      else .ok (.float (op.onFloats x y))
    | _, _ => .error (.fails (.notNumbers l.toText r.toText))

/-- An operator applied to the values of its sides. -/
def Operator.apply (op : Operator) (l r : Value) : Result :=
  match op with
  | .add => .ok (l.add r)
  | .sub => Arithmetic.sub.apply l r
  | .mul => Arithmetic.mul.apply l r
  | .div => Arithmetic.div.apply l r
  | .rem => Arithmetic.rem.apply l r
  | .less => .ok (.bool (l.compare r == .lt))
  | .atMost => .ok (.bool (l.compare r != .gt))
  | .greater => .ok (.bool (l.compare r == .gt))
  | .atLeast => .ok (.bool (l.compare r != .lt))
  | .equal => .ok (.bool (l.compare r == .eq))
  | .unequal => .ok (.bool (l.compare r != .eq))

/-- The value with its sign turned. -/
def Value.negate : Value → Result
  | .int i =>
    if i = Text.IntegerRange.signed64.least then .error (.fails .overflow) else .ok (.int (-i))
  | .float x => .ok (.float (-x))
  | v => .error (.fails (.notNegatable v.toText))

/-- The value of a term. -/
def Term.eval : Term → Result
  | .literal v => .ok v
  | .negate t => do (← t.eval).negate
  | .not t => do
    let v ← t.eval
    return .bool (!v.isTruthy)
  | .both l r => do
    let v ← l.eval
    if v.isTruthy then
      let w ← r.eval
      return .bool w.isTruthy
    else return .bool false
  | .either l r => do
    let v ← l.eval
    if v.isTruthy then return .bool true
    else
      let w ← r.eval
      return .bool w.isTruthy
  | .choice condition first second => do
    let v ← condition.eval
    if v.isTruthy then first.eval else second.eval
  | .binary op l r => do
    let v ← l.eval
    let w ← r.eval
    op.apply v w

/-- The value that a text spells. A text without tokens spells the empty text. -/
def evaluate (source : String) : Result :=
  match tokenize source.toList with
  | .error fault => .error (.fails fault)
  | .ok [] => .ok (.text "")
  | .ok tokens =>
    match Term.ofTokens tokens with
    | .error fault => .error (.fails fault)
    | .ok term => term.eval

end ConfTree.Expression
