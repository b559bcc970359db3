import InfixArithmetic.Expr.Traversal
import InfixArithmetic.Strategy
import InfixArithmetic.Text.Quoted

namespace InfixArithmetic

/-- The importance of an event, the most important first. -/
inductive LogLevel where
  | error
  | warn
  | info
  | debug
  | trace
deriving DecidableEq, Repr

namespace LogLevel

/-- The position among the levels; a log that shows a level shows all lower positions too. -/
def rank : LogLevel → Nat
  | error => 0
  | warn => 1
  | info => 2
  | debug => 3
  | trace => 4

def name : LogLevel → String
  | error => "ERROR"
  | warn => "WARN"
  | info => "INFO"
  | debug => "DEBUG"
  | trace => "TRACE"

end LogLevel

inductive Event where
  | tokenized (text : String) (tokens : List Token)
  /-- A group was found; its parentheses stand at these positions of their nesting level. -/
  | groupFound (first last : Nat)
  | combined (op : Operator) (left right : Expr)
  /-- A closing parenthesis moved a waiting token to the output. -/
  | movedByClose (moved : Token)
  | movedByOperator (op : Operator) (moved : Token)
  | reordered (tokens : List Token)
  | built (strategy : Strategy) (root : Expr)
  | builtFromPostfix (root : Expr) (text : String)
  | simplified (before : Expr) (height : Nat) (after : Expr)
  /-- The expression of a program run was read. -/
  | heightParsed (height : Nat)
  | heightSimplified (height : Nat)
deriving DecidableEq, Repr

namespace Event

def level : Event → LogLevel
  | tokenized .. | groupFound .. | combined .. | movedByClose .. | movedByOperator .. => .trace
  | reordered .. | built .. | builtFromPostfix .. | simplified .. => .debug
  | heightParsed .. | heightSimplified .. => .info

def message : Event → String
  | tokenized text tokens => "tokenized " ++ Text.quote text ++ " into " ++ Token.listText tokens
  | groupFound first last => "F: parenthesised tokens " ++ first.repr ++ "..=" ++ last.repr
  | combined op left right =>
      (if op.isAdditive then "E: " else "T: ") ++ left.bracketed ++ " " ++ op.text ++ " " ++
        right.bracketed
  | movedByClose moved => "')' moves " ++ moved.text ++ " to output"
  | movedByOperator op moved => "'" ++ op.text ++ "' moves " ++ moved.text ++ " to output"
  | reordered tokens => "postfix tokens: " ++ Token.listText tokens
  | built strategy root => strategy.name ++ " built tree " ++ root.bracketed
  | builtFromPostfix root text =>
      "built tree " ++ root.bracketed ++ " from postfix " ++ Text.quote text
  | simplified before height after =>
      "simplified " ++ before.bracketed ++ " to height " ++ height.repr ++ " as " ++
        after.bracketed
  | heightParsed height => "parsed expression of height " ++ height.repr
  | heightSimplified height => "simplified expression to height " ++ height.repr

end Event

end InfixArithmetic
