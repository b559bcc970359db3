import InfixArithmetic.Failure
import InfixArithmetic.Tree

namespace InfixArithmetic

/-- The tree of an infix expression. The failure tells what was being done with which text. -/
def convert (strategy : Strategy) (text : String) : Except Failure Tree :=
  (Tree.parse { strategy } text).result.outcome.mapError fun error =>
    ⟨.parseText text, .parse error⟩

def evaluateText (strategy : Strategy) (text : String) : Except Failure Value := do
  let tree ← convert strategy text
  tree.evaluate.mapError fun error => ⟨.evaluateText text, .evaluation error⟩

/-- The simplified form of an infix expression, in postfix order. -/
def simplifyText (strategy : Strategy) (height : Value) (text : String) :
    Except Failure String := do
  let tree ← convert strategy text
  let simplified ← (tree.simplify height).result.outcome.mapError fun error =>
    ⟨.simplifyText text, .evaluation error⟩
  return simplified.postfixText

end InfixArithmetic
