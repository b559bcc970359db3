import InfixArithmetic.Expr.Basic
import InfixArithmetic.Token

namespace InfixArithmetic.Expr

def toPrefix : Expr → List Token
  | literal value => [.literal value]
  | operation op left right => .operator op :: (left.toPrefix ++ right.toPrefix)

def toPostfix : Expr → List Token
  | literal value => [.literal value]
  | operation op left right => left.toPostfix ++ right.toPostfix ++ [.operator op]

theorem forall_mem_toPrefix {P : Token → Prop} (hliteral : ∀ value, P (.literal value))
    (hoperator : ∀ op, P (.operator op)) (e : Expr) : ∀ token ∈ e.toPrefix, P token := by
  induction e with
  | literal value =>
      rw [toPrefix, List.forall_mem_singleton]
      exact hliteral value
  | operation op left right ihLeft ihRight =>
      rw [toPrefix, List.forall_mem_cons, List.forall_mem_append]
      exact ⟨hoperator op, ihLeft, ihRight⟩

theorem forall_mem_toPostfix {P : Token → Prop} (hliteral : ∀ value, P (.literal value))
    (hoperator : ∀ op, P (.operator op)) (e : Expr) : ∀ token ∈ e.toPostfix, P token := by
  induction e with
  | literal value =>
      rw [toPostfix, List.forall_mem_singleton]
      exact hliteral value
  | operation op left right ihLeft ihRight =>
      rw [toPostfix, List.forall_mem_append, List.forall_mem_append, List.forall_mem_singleton]
      exact ⟨⟨ihLeft, ihRight⟩, hoperator op⟩

/-- The fully parenthesised text in prefix order, such as `(+ 1 (* 2 3))`. -/
def bracketed : Expr → String
  | literal value => value.decimal
  | operation op left right =>
      "(" ++ op.text ++ " " ++ left.bracketed ++ " " ++ right.bracketed ++ ")"

end InfixArithmetic.Expr
