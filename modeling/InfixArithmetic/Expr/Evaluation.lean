import InfixArithmetic.Error
import InfixArithmetic.Expr.Basic

namespace InfixArithmetic

def Operator.apply (op : Operator) (a b : Value) : Except EvalError Value :=
  if op = .divide ∧ b = 0 then
    .error (.divisionByZero a)
  else
    match Value.ofInt? (op.exact a.toInt b.toInt) with
    | some value => .ok value
    | none => .error (.overflow op a b)

namespace Expr

/-- Operands come first, the left one before the right one, so the error is that of the first
failing operation in postfix order. -/
def evaluate : Expr → Except EvalError Value
  | literal value => .ok value
  | operation op left right => do
      let a ← left.evaluate
      let b ← right.evaluate
      op.apply a b

theorem evaluate_operation_eq_ok_iff {op : Operator} {left right : Expr} {value : Value} :
    (operation op left right).evaluate = .ok value ↔
      ∃ a b, left.evaluate = .ok a ∧ right.evaluate = .ok b ∧ op.apply a b = .ok value := by
  rw [evaluate]
  cases left.evaluate with
  | error error => simp [bind, Except.bind]
  | ok a => cases right.evaluate <;> simp [bind, Except.bind]

end Expr

end InfixArithmetic
