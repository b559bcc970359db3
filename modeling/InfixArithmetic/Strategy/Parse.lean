import InfixArithmetic.Descent
import InfixArithmetic.Expr.Postfix
import InfixArithmetic.ShuntingYard

namespace InfixArithmetic.Strategy

/-- Reads tokens in infix order, without the log entry for success. -/
def read (strategy : Strategy) (tokens : List Token) : Traced ParseError Expr :=
  match strategy with
  | recursiveDescent => (Descent.expression tokens).mapError .illFormed
  | shuntingYard => do
      Traced.ofExcept ((checkEdges tokens).mapError .illFormed)
      let ordered ← postfixOrder tokens
      Traced.log (.reordered ordered)
      Traced.ofExcept (Expr.ofPostfix ordered)

def parse (strategy : Strategy) (tokens : List Token) : Traced ParseError Expr :=
  if tokens.isEmpty then
    Traced.fail .emptyInput
  else do
    let root ← strategy.read tokens
    Traced.log (.built strategy root)
    return root

end InfixArithmetic.Strategy
