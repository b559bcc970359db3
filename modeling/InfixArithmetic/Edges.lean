import InfixArithmetic.Error

namespace InfixArithmetic

/-- Refuses tokens that are empty, that start or end with an operator, that start with a closing
parenthesis or that end with an opening one. Operators come first, and the first token comes before
the last one. -/
def checkEdges (level : List Token) : Except SyntaxError Unit :=
  match level.head?, level.getLast? with
  | some (.operator op), _ => .error (.danglingOperator op)
  | _, some (.operator op) => .error (.danglingOperator op)
  | some .closeParen, _ => .error (.misplacedParenthesis .closeParen)
  | _, some .openParen => .error (.misplacedParenthesis .openParen)
  | some _, _ => .ok ()
  | none, _ => .error .emptyParentheses

end InfixArithmetic
