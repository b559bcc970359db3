namespace InfixArithmetic

inductive Operator where
  | add
  | subtract
  | multiply
  | divide
deriving DecidableEq, Repr

namespace Operator

def symbol : Operator → Char
  | add => '+'
  | subtract => '-'
  | multiply => '*'
  | divide => '/'

def text (op : Operator) : String :=
  op.symbol.toString

def ofSymbol? : Char → Option Operator
  | '+' => some add
  | '-' => some subtract
  | '*' => some multiply
  | '/' => some divide
  | _ => none

/-- Binding strength: an operator of higher precedence takes its operands first. -/
def precedence : Operator → Nat
  | add | subtract => 0
  | multiply | divide => 1

/-- Additive operators join terms; the others join the factors of one term. -/
def isAdditive (op : Operator) : Bool :=
  op.precedence == 0

/-- The result over unbounded integers. Division truncates toward zero. -/
def exact : Operator → Int → Int → Int
  | add, a, b => a + b
  | subtract, a, b => a - b
  | multiply, a, b => a * b
  | divide, a, b => a.tdiv b

theorem ofSymbol?_symbol (op : Operator) : ofSymbol? op.symbol = some op := by
  cases op <;> rfl

theorem isAdditive_iff {op : Operator} : op.isAdditive ↔ op = add ∨ op = subtract := by
  cases op <;> decide

theorem not_isAdditive_iff {op : Operator} : ¬op.isAdditive ↔ op = multiply ∨ op = divide := by
  cases op <;> decide

end Operator

end InfixArithmetic
