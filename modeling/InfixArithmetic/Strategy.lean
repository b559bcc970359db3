namespace InfixArithmetic

/-- A way to read an infix expression. -/
inductive Strategy where
  | recursiveDescent
  | shuntingYard
deriving DecidableEq, Repr

namespace Strategy

instance : Inhabited Strategy := ⟨recursiveDescent⟩

/-- The name under which log messages mention the strategy. -/
def name : Strategy → String
  | recursiveDescent => "RecursiveDescent"
  | shuntingYard => "ShuntingYard"

end Strategy

end InfixArithmetic
