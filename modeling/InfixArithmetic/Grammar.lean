import InfixArithmetic.Expr.Basic
import InfixArithmetic.Token

/-!
The grammar of infix expressions, as a relation between token sequences and the expressions that
they denote. Multiplicative operators join factors to terms, additive operators join terms to
expressions, and the left operand of either may be such a chain itself, so that operators of one
precedence associate to the left. Parentheses leave no trace in the expression.
-/

namespace InfixArithmetic.Grammar

mutual

/-- Tokens that form an expression, and the expression that they denote. -/
inductive Expression : List Token → Expr → Prop where
  | term {tokens : List Token} {e : Expr} : Term tokens e → Expression tokens e
  | sum {first second : List Token} {left right : Expr} {op : Operator} :
      op = .add ∨ op = .subtract → Expression first left → Term second right →
      Expression (first ++ .operator op :: second) (.operation op left right)

inductive Term : List Token → Expr → Prop where
  | factor {tokens : List Token} {e : Expr} : Factor tokens e → Term tokens e
  | product {first second : List Token} {left right : Expr} {op : Operator} :
      op = .multiply ∨ op = .divide → Term first left → Factor second right →
      Term (first ++ .operator op :: second) (.operation op left right)

inductive Factor : List Token → Expr → Prop where
  | literal (value : Value) : Factor [.literal value] (.literal value)
  | group {tokens : List Token} {e : Expr} :
      Expression tokens e → Factor (.openParen :: tokens ++ [.closeParen]) e

end

end InfixArithmetic.Grammar
