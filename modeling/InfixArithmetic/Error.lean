import InfixArithmetic.Token

namespace InfixArithmetic

inductive SyntaxError where
  | danglingOperator (op : Operator)
  | misplacedParenthesis (token : Token)
  /-- An unrecognized token where the grammar asks for something else. -/
  | invalidFactor (text : String)
  | unmatchedParenthesis
  /-- A token after one that it cannot follow. -/
  | unexpectedToken (token : Token)
  | emptyParentheses
deriving DecidableEq, Repr

namespace SyntaxError

/-- The report of the violation on its own, without a heading. -/
def detail : SyntaxError → String
  | danglingOperator op => "extra operator '" ++ op.text ++ "'"
  | misplacedParenthesis token =>
      "parenthesis '" ++ token.text ++ "' can not appear at that position"
  | invalidFactor text => "not an integer: '" ++ text ++ "'"
  | unmatchedParenthesis => "mismatched parenthesis"
  | unexpectedToken token => "unexpected token '" ++ token.text ++ "'"
  | emptyParentheses => "empty parentheses"

/-- The error for a token at a place where the grammar does not admit it. -/
def unexpected : Token → SyntaxError
  | .unrecognized text => invalidFactor text
  | token => unexpectedToken token

end SyntaxError

inductive ParseError where
  | emptyInput
  | illFormed (error : SyntaxError)
  /-- In postfix order, an operator has fewer than two operands before it. -/
  | stackUnderflow (op : Operator) (available : Nat)
  /-- In postfix order, the tokens denote another number of expressions than one. -/
  | malformedResult (roots : Nat)
deriving DecidableEq, Repr

namespace ParseError

def message : ParseError → String
  | emptyInput => "Empty expression, can not parse"
  | illFormed error => "Syntax error: " ++ error.detail
  | stackUnderflow op available =>
      "Stack underflow: '" ++ op.text ++ "' needs two operands but only " ++ available.repr ++
        " were available"
  | malformedResult roots =>
      "Malformed expression: expected exactly one tree root but found " ++ roots.repr

end ParseError

inductive EvalError where
  | divisionByZero (dividend : Value)
  | overflow (op : Operator) (left right : Value)
  | negativeHeight (height : Value)
deriving DecidableEq, Repr

namespace EvalError

def message : EvalError → String
  | divisionByZero dividend => "Division by zero: " ++ dividend.decimal ++ " / 0"
  | overflow op left right =>
      "Integer overflow: " ++ left.decimal ++ " " ++ op.text ++ " " ++ right.decimal
  | negativeHeight height => "Can not simplify to a negative height (" ++ height.decimal ++ ")"

end EvalError

end InfixArithmetic
