import InfixArithmetic.Error
import InfixArithmetic.Expr.Basic

namespace InfixArithmetic.Expr

/-- The effect of one token on the stack, whose head is the expression read last. -/
def push (stack : List Expr) : Token → Except ParseError (List Expr)
  | .literal value => .ok (literal value :: stack)
  | .operator op =>
      match stack with
      | right :: left :: rest => .ok (operation op left right :: rest)
      | short => .error (.stackUnderflow op short.length)
  | .unrecognized text => .error (.illFormed (.invalidFactor text))
  | token => .error (.illFormed (.misplacedParenthesis token))

/-- The expression that tokens in postfix order denote. Exactly one must be left on the stack. -/
def ofPostfix (tokens : List Token) : Except ParseError Expr := do
  match ← tokens.foldlM push [] with
  | [root] => .ok root
  | stack => .error (.malformedResult stack.length)

end InfixArithmetic.Expr
