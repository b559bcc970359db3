import InfixArithmetic.Operator
import InfixArithmetic.Value

namespace InfixArithmetic

inductive Expr where
  | literal (value : Value)
  | operation (op : Operator) (left right : Expr)
deriving DecidableEq, Repr

namespace Expr

/-- The number of edges on the longest path from the root down to a leaf. -/
def height : Expr → Nat
  | literal _ => 0
  | operation _ left right => 1 + max left.height right.height

end Expr

end InfixArithmetic
