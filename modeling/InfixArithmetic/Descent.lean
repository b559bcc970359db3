import InfixArithmetic.Bracket
import InfixArithmetic.Edges
import InfixArithmetic.Traced

/-!
Reading an infix expression by the grammar

    expression: term, then any number of an additive operator and a term
    term: factor, then any number of a multiplicative operator and a factor
    factor: a literal, or an expression between parentheses

where operators of one precedence associate to the left. The inside of a group is a nesting level
of its own: its edges are checked and it must be read to its end. Within a level a position moves
over the tokens, and the operations that still lack their right operand wait in a `Pending`.
-/

namespace InfixArithmetic.Descent

/-- What stands at a position where an operand is due. -/
inductive Operand where
  | literal (value : Value)
  /-- A group; its closing parenthesis has the position `close`. -/
  | group (close : Nat)
deriving DecidableEq, Repr

/-- The error for an operand that is due after the last token. -/
def missingOperand (level : List Token) (position : Nat) : SyntaxError :=
  match position with
  | 0 => .emptyParentheses
  | before + 1 =>
      match level[before]? with
      | some (.operator op) => .danglingOperator op
      | _ => .emptyParentheses

def operandAt (level : List Token) (position : Nat) : Except SyntaxError Operand :=
  match level[position]? with
  | some (.literal value) => .ok (.literal value)
  | some .openParen =>
      match Bracket.matchingClose? level position with
      | some close => .ok (.group close)
      | none => .error .unmatchedParenthesis
  | some token => .error (.unexpected token)
  | none => .error (missingOperand level position)

structure OpenOperation where
  left : Expr
  op : Operator
deriving DecidableEq, Repr

/-- Supplies the right operand to an open operation, if there is one. -/
def complete (pending : Option OpenOperation) (right : Expr) : Traced SyntaxError Expr :=
  match pending with
  | none => pure right
  | some operation => do
      Traced.log (.combined operation.op operation.left right)
      return .operation operation.op operation.left right

/-- The operations that wait while an operand is read: at most one for each precedence. -/
structure Pending where
  sum : Option OpenOperation := none
  /-- A multiplicative operation, part of the current term, that waits for its right factor. -/
  product : Option OpenOperation := none
deriving DecidableEq, Repr

theorem lt_length_of_operandAt {level : List Token} {position : Nat} {operand : Operand}
    (h : operandAt level position = .ok operand) : position < level.length := by
  by_cases hlt : position < level.length
  · exact hlt
  · unfold operandAt at h
    rw [List.getElem?_eq_none (Nat.le_of_not_lt hlt)] at h
    cases h

theorem bounds_of_operandAt_group {level : List Token} {position close : Nat}
    (h : operandAt level position = .ok (.group close)) :
    position < close ∧ close < level.length := by
  unfold operandAt at h
  split at h
  · simp at h
  · split at h
    next hclose =>
      cases h
      exact Bracket.matchingClose?_bounds hclose
    next => simp at h
  · simp at h
  · simp at h

mutual

def expression (level : List Token) : Traced SyntaxError Expr := do
  Traced.ofExcept (checkEdges level)
  factor level {} 0
termination_by 2 * level.length + 2

/-- Reads the rest of a level from a position where an operand is due. -/
def factor (level : List Token) (pending : Pending) (position : Nat) : Traced SyntaxError Expr :=
  match h : operandAt level position with
  | .error error => Traced.fail error
  | .ok (.literal value) => afterFactor level pending (.literal value) (position + 1)
  | .ok (.group close) => do
      Traced.log (.groupFound position close)
      let inside ← expression (level.extract (position + 1) close)
      afterFactor level pending inside (close + 1)
termination_by 2 * (level.length - position) + 1
decreasing_by
  · have hlt := lt_length_of_operandAt h
    omega
  · have hbounds := bounds_of_operandAt_group h
    simp only [List.extract_eq_take_drop, List.length_take, List.length_drop]
    omega
  · have hbounds := bounds_of_operandAt_group h
    omega

/-- Reads the rest of a level after an operand. A term ends at the first additive operator, and
only then joins the sum that waits for it. -/
def afterFactor (level : List Token) (pending : Pending) (operand : Expr) (position : Nat) :
    Traced SyntaxError Expr := do
  let term ← complete pending.product operand
  match h : level[position]? with
  | some (.operator op) =>
      if op.isAdditive then
        let sum ← complete pending.sum term
        factor level { sum := some ⟨sum, op⟩ } (position + 1)
      else
        factor level { pending with product := some ⟨term, op⟩ } (position + 1)
  | token? => do
      let sum ← complete pending.sum term
      match token? with
      | none => return sum
      | some .closeParen => Traced.fail .unmatchedParenthesis
      | some token => Traced.fail (.unexpected token)
termination_by 2 * (level.length - position)
decreasing_by
  all_goals
    have hlt := (List.getElem?_eq_some_iff.mp h).1
    omega

end

theorem factor_of_error {level : List Token} {position : Nat} {error : SyntaxError}
    (pending : Pending) (h : operandAt level position = .error error) :
    factor level pending position = Traced.fail error := by
  rw [factor]
  split <;> simp_all

theorem factor_of_literal {level : List Token} {position : Nat} {value : Value}
    (pending : Pending) (h : operandAt level position = .ok (.literal value)) :
    factor level pending position =
      afterFactor level pending (.literal value) (position + 1) := by
  rw [factor]
  split <;> simp_all

theorem factor_of_group {level : List Token} {position close : Nat}
    (pending : Pending) (h : operandAt level position = .ok (.group close)) :
    factor level pending position = (do
      Traced.log (.groupFound position close)
      let inside ← expression (level.extract (position + 1) close)
      afterFactor level pending inside (close + 1)) := by
  rw [factor]
  split <;> simp_all

end InfixArithmetic.Descent
