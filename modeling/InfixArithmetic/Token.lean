import InfixArithmetic.Operator
import InfixArithmetic.Value.Decimal

namespace InfixArithmetic

/-- A part of a written expression. Every text denotes one: what is neither a literal nor a symbol
is kept as it is, so that an error can name it. -/
inductive Token where
  | literal (value : Value)
  | operator (op : Operator)
  | openParen
  | closeParen
  | unrecognized (text : String)
deriving DecidableEq, Repr

namespace Token

/-- The token that a single atom denotes. Blanks have no special meaning here. -/
def ofText (text : String) : Token :=
  match text.toList with
  | ['('] => openParen
  | [')'] => closeParen
  | ['+'] => operator .add
  | ['-'] => operator .subtract
  | ['*'] => operator .multiply
  | ['/'] => operator .divide
  | characters =>
      match Value.ofDecimal? characters with
      | some value => literal value
      | none => unrecognized text

/-- The text of a token. Literals are written in canonical decimal notation. -/
def text : Token → String
  | literal value => value.decimal
  | operator op => op.text
  | openParen => "("
  | closeParen => ")"
  | unrecognized text => text

def operator? : Token → Option Operator
  | operator op => some op
  | _ => none

def isOperator (t : Token) : Bool :=
  t.operator?.isSome

def isParenthesis : Token → Bool
  | openParen | closeParen => true
  | _ => false

def joinText (ts : List Token) : String :=
  " ".intercalate (ts.map text)

/-- The texts of the tokens as a bracketed list, for messages. -/
def listText (ts : List Token) : String :=
  "[" ++ ", ".intercalate (ts.map text) ++ "]"

end Token

end InfixArithmetic
