import InfixArithmetic.Error
import InfixArithmetic.Traced

/-!
Reordering infix tokens into postfix order. Operators and opening parentheses wait on a stack until
their operands have gone to the output. An operator first moves every waiting operator that binds
at least as strongly, so operators of one precedence associate to the left; a closing parenthesis
moves all operators down to the parenthesis that opened its group.
-/

namespace InfixArithmetic

structure Yard where
  /-- The waiting tokens, the latest first. -/
  stack : List Token := []
  /-- The tokens in postfix order so far, the latest first. -/
  output : List Token := []
  expectOperand : Bool := true
deriving DecidableEq, Repr

namespace Yard

/-- What waits is an operator that binds at least as strongly as `op`. -/
def yields (op : Operator) (waiting : Token) : Bool :=
  waiting.operator?.any fun other => op.precedence ≤ other.precedence

/-- Moves all operators that yield to `op` to the output. -/
def makeWay (op : Operator) (yard : Yard) : Traced SyntaxError Yard := do
  let moved := yard.stack.takeWhile (yields op)
  Traced.logAll (moved.map (.movedByOperator op))
  return { yard with
    stack := yard.stack.dropWhile (yields op)
    output := moved.reverse ++ yard.output }

/-- Closes the innermost group: its waiting operators go to the output, its opening parenthesis is
dropped. -/
def closeGroup (yard : Yard) : Traced SyntaxError Yard := do
  let moved := yard.stack.takeWhile (· ≠ .openParen)
  Traced.logAll (moved.map .movedByClose)
  match yard.stack.dropWhile (· ≠ .openParen) with
  | [] => Traced.fail .unmatchedParenthesis
  | _ :: rest => return { yard with stack := rest, output := moved.reverse ++ yard.output }

def feed (yard : Yard) (token : Token) : Traced SyntaxError Yard :=
  match token, yard.expectOperand with
  | .literal _, true =>
      return { yard with output := token :: yard.output, expectOperand := false }
  | .openParen, true => return { yard with stack := token :: yard.stack }
  | .closeParen, true =>
      if yard.stack.head? = some .openParen then
        Traced.fail .emptyParentheses
      else
        Traced.fail (.unexpected token)
  | .closeParen, false => yard.closeGroup
  | .operator op, false => do
      let yard ← yard.makeWay op
      return { yard with stack := token :: yard.stack, expectOperand := true }
  | token, _ => Traced.fail (.unexpected token)

/-- The tokens in postfix order, once all tokens have been taken in. Operators still waiting follow
the output; a parenthesis among them has no partner. -/
def finish (yard : Yard) : Except SyntaxError (List Token) :=
  if yard.stack.any Token.isParenthesis then
    .error .unmatchedParenthesis
  else
    let result := yard.output.reverse ++ yard.stack
    if result.any Token.isParenthesis then .error .unmatchedParenthesis else .ok result

end Yard

/-- The error for tokens at whose end an operand is still due. -/
def incompleteError (tokens : List Token) : ParseError :=
  match tokens.getLast? with
  | none => .emptyInput
  | some (.operator op) => .illFormed (.danglingOperator op)
  | some _ => .illFormed .unmatchedParenthesis

/-- The infix tokens in postfix order. -/
def postfixOrder (tokens : List Token) : Traced ParseError (List Token) := do
  let yard ← (tokens.foldlM Yard.feed {}).mapError .illFormed
  if yard.expectOperand then
    Traced.fail (incompleteError tokens)
  else
    Traced.ofExcept (yard.finish.mapError .illFormed)

end InfixArithmetic
