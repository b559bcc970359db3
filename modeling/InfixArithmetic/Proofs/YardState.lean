import InfixArithmetic.Expr.Traversal
import InfixArithmetic.ShuntingYard
import InfixArithmetic.Proofs.PendingOperations

/-!
The states of a yard between two tokens, seen as the operations that wait at each open nesting
level. The stack holds their operators, the output their left operands in postfix order, and every
token that is taken in leads from one such state to another.
-/

namespace InfixArithmetic

open Descent

theorem Operator.precedence_le_iff (op other : Operator) :
    op.precedence ≤ other.precedence ↔ op.isAdditive ∨ ¬other.isAdditive := by
  cases op <;> cases other <;> decide

theorem isParenthesis_of_mem_toPostfix {e : Expr} {token : Token} (h : token ∈ e.toPostfix) :
    token.isParenthesis = false :=
  Expr.forall_mem_toPostfix (P := fun token => token.isParenthesis = false) (fun _ => rfl)
    (fun _ => rfl) e token h

namespace Descent.Pending

/-- The waiting operators, the latest first. -/
def operators (pending : Pending) : List Token :=
  (pending.product.toList ++ pending.sum.toList).map fun operation => .operator operation.op

/-- The left operands of the waiting operations in postfix order. -/
def operands (pending : Pending) : List Token :=
  (pending.sum.toList ++ pending.product.toList).flatMap fun operation =>
    operation.left.toPostfix

theorem toPostfix_finish (pending : Pending) (operand : Expr) :
    (pending.finish operand).toPostfix =
      pending.operands ++ operand.toPostfix ++ pending.operators := by
  obtain ⟨_ | ⟨left, op⟩, _ | ⟨left', op'⟩⟩ := pending <;>
    simp [finish, operands, operators, Expr.toPostfix]

theorem isParenthesis_of_mem_operators {pending : Pending} {token : Token}
    (h : token ∈ pending.operators) : token.isParenthesis = false := by
  obtain ⟨operation, -, rfl⟩ := List.mem_map.mp h
  rfl

end Descent.Pending

namespace Yard

/-- What waits below the innermost level: for each open group its parenthesis and the operators
of the level around it. -/
def below (outer : List Pending) : List Token :=
  outer.flatMap fun pending => .openParen :: pending.operators

/-- The output that belongs to the levels around the innermost one, the latest first. -/
def settled (outer : List Pending) : List Token :=
  outer.flatMap fun pending => pending.operands.reverse

def due (pending : Pending) (outer : List Pending) : Yard where
  stack := pending.operators ++ below outer
  output := pending.operands.reverse ++ settled outer
  expectOperand := true

def met (pending : Pending) (outer : List Pending) (operand : Expr) : Yard where
  stack := pending.operators ++ below outer
  output := operand.toPostfix.reverse ++ (pending.operands.reverse ++ settled outer)
  expectOperand := false

theorem feed_due_literal (pending : Pending) (outer : List Pending) (value : Value) :
    ((due pending outer).feed (.literal value)).outcome =
      .ok (met pending outer (.literal value)) := rfl

theorem feed_due_openParen (pending : Pending) (outer : List Pending) :
    ((due pending outer).feed .openParen).outcome = .ok (due {} (pending :: outer)) := rfl

theorem feed_due_closeParen (pending : Pending) (outer : List Pending) :
    ((due pending outer).feed .closeParen).outcome =
      .error (if (due pending outer).stack.head? = some .openParen then .emptyParentheses
        else .unexpectedToken .closeParen) := by
  have hfeed : (due pending outer).feed .closeParen =
      if (due pending outer).stack.head? = some .openParen then Traced.fail .emptyParentheses
      else Traced.fail (.unexpected .closeParen) := rfl
  rw [hfeed]
  split <;> rfl

theorem feed_unrecognized (yard : Yard) (text : String) :
    (yard.feed (.unrecognized text)).outcome = .error (.invalidFactor text) := by
  rcases yard with ⟨stack, output, _ | _⟩ <;> rfl

theorem outcome_makeWay (op : Operator) (yard : Yard) :
    (makeWay op yard).outcome = .ok { yard with
      stack := yard.stack.dropWhile (yields op)
      output := (yard.stack.takeWhile (yields op)).reverse ++ yard.output } := rfl

theorem yields_operator (op other : Operator) :
    yields op (.operator other) = true ↔ op.isAdditive ∨ ¬other.isAdditive := by
  simp [yields, Token.operator?, Operator.precedence_le_iff]

/-- An operator divides the operators of its level into those that it moves, which complete the
operand before it, and those that stay. -/
theorem exists_moved {pending : Pending} (h : pending.Ranked) (operand : Expr) (op : Operator) :
    ∃ moved kept, pending.operators = moved ++ kept ∧
      (∀ token ∈ moved, yields op token = true) ∧ (∀ token ∈ kept, yields op token = false) ∧
      (pending.next operand op).operators = .operator op :: kept ∧
      (pending.next operand op).operands = pending.operands ++ operand.toPostfix ++ moved := by
  obtain ⟨hsum, hproduct⟩ := h
  -- An additive operator moves all of its level, a multiplicative one the product only.
  by_cases hop : op.isAdditive
  · refine ⟨pending.operators, [], by simp, ?_, by simp, ?_, ?_⟩
    · intro token htoken
      obtain ⟨operation, -, rfl⟩ := List.mem_map.mp htoken
      exact (yields_operator op operation.op).mpr (.inl hop)
    · rw [Pending.next_of_additive pending operand hop]
      rfl
    · rw [Pending.next_of_additive pending operand hop]
      simp [Pending.operands, Pending.toPostfix_finish]
  · refine ⟨pending.product.toList.map fun operation => .operator operation.op,
      pending.sum.toList.map fun operation => .operator operation.op, ?_, ?_, ?_, ?_, ?_⟩
    · simp [Pending.operators]
    · intro token htoken
      obtain ⟨operation, hoperation, rfl⟩ := List.mem_map.mp htoken
      have hother := hproduct operation (by simpa using hoperation)
      exact (yields_operator op operation.op).mpr (.inr hother)
    · intro token htoken
      obtain ⟨operation, hoperation, rfl⟩ := List.mem_map.mp htoken
      have hother := hsum operation (by simpa using hoperation)
      rw [← Bool.not_eq_true, yields_operator]
      simp [hop, hother]
    · rw [Pending.next_of_not_additive pending operand hop]
      rfl
    · rw [Pending.next_of_not_additive pending operand hop]
      obtain ⟨sum, _ | ⟨left, op'⟩⟩ := pending <;>
        simp [Pending.operands, Expr.toPostfix]

theorem takeWhile_kept {op : Operator} {kept : List Token} (outer : List Pending)
    (h : ∀ token ∈ kept, yields op token = false) :
    (kept ++ below outer).takeWhile (yields op) = [] := by
  cases kept with
  | nil => cases outer <;> rfl
  | cons token rest => simp [h token]

theorem dropWhile_kept {op : Operator} {kept : List Token} (outer : List Pending)
    (h : ∀ token ∈ kept, yields op token = false) :
    (kept ++ below outer).dropWhile (yields op) = kept ++ below outer := by
  cases kept with
  | nil => cases outer <;> rfl
  | cons token rest => simp [h token]

theorem feed_met_operator {pending : Pending} (h : pending.Ranked) (outer : List Pending)
    (operand : Expr) (op : Operator) :
    ((met pending outer operand).feed (.operator op)).outcome =
      .ok (due (pending.next operand op) outer) := by
  have hfeed : ((met pending outer operand).feed (.operator op)).outcome =
      (makeWay op (met pending outer operand)).outcome.map fun yard =>
        { yard with stack := .operator op :: yard.stack, expectOperand := true } := rfl
  obtain ⟨moved, kept, hsplit, hmoved, hkept, hoperators, hoperands⟩ := exists_moved h operand op
  have hstack : (met pending outer operand).stack = moved ++ (kept ++ below outer) := by
    rw [met, hsplit, List.append_assoc]
  rw [hfeed, outcome_makeWay, hstack, List.takeWhile_append_of_pos hmoved,
    List.dropWhile_append_of_pos hmoved, takeWhile_kept outer hkept, dropWhile_kept outer hkept,
    due, hoperators, hoperands]
  simp [Except.map, met]

theorem ne_openParen_of_mem_operators {pending : Pending} (token : Token)
    (h : token ∈ pending.operators) : decide (token ≠ .openParen) = true := by
  rw [decide_eq_true_eq]
  rintro rfl
  have hparen := Pending.isParenthesis_of_mem_operators h
  cases hparen

theorem takeWhile_operators (pending : Pending) (rest : List Token) :
    (pending.operators ++ rest).takeWhile (· ≠ .openParen) =
      pending.operators ++ rest.takeWhile (· ≠ .openParen) :=
  List.takeWhile_append_of_pos ne_openParen_of_mem_operators

theorem dropWhile_operators (pending : Pending) (rest : List Token) :
    (pending.operators ++ rest).dropWhile (· ≠ .openParen) =
      rest.dropWhile (· ≠ .openParen) :=
  List.dropWhile_append_of_pos ne_openParen_of_mem_operators

theorem outcome_closeGroup (yard : Yard) :
    yard.closeGroup.outcome =
      match yard.stack.dropWhile (· ≠ .openParen) with
      | [] => .error .unmatchedParenthesis
      | _ :: rest => .ok { yard with
          stack := rest
          output := (yard.stack.takeWhile (· ≠ .openParen)).reverse ++ yard.output } := by
  rw [closeGroup, Traced.outcome_bind, Traced.outcome_logAll, Except.bind]
  cases yard.stack.dropWhile (· ≠ .openParen) <;> rfl

theorem feed_met_closeParen (pending pending' : Pending) (outer : List Pending)
    (operand : Expr) :
    ((met pending (pending' :: outer) operand).feed .closeParen).outcome =
      .ok (met pending' outer (pending.finish operand)) := by
  have hfeed : (met pending (pending' :: outer) operand).feed .closeParen =
      (met pending (pending' :: outer) operand).closeGroup := rfl
  have hstack : (met pending (pending' :: outer) operand).stack =
      pending.operators ++ .openParen :: (pending'.operators ++ below outer) := rfl
  rw [hfeed, outcome_closeGroup, hstack, takeWhile_operators, dropWhile_operators]
  simp [met, settled, Pending.toPostfix_finish]

theorem feed_met_closeParen_outermost (pending : Pending) (operand : Expr) :
    ((met pending [] operand).feed .closeParen).outcome = .error .unmatchedParenthesis := by
  have hfeed : (met pending [] operand).feed .closeParen =
      (met pending [] operand).closeGroup := rfl
  have hstack : (met pending [] operand).stack = pending.operators ++ [] := rfl
  rw [hfeed, outcome_closeGroup, hstack, dropWhile_operators]
  rfl

theorem any_isParenthesis_eq_false {tokens : List Token}
    (h : ∀ token ∈ tokens, token.isParenthesis = false) :
    tokens.any Token.isParenthesis = false := by
  rw [List.any_eq_false]
  intro token htoken
  rw [h token htoken]
  exact Bool.false_ne_true

theorem finish_met_outermost (pending : Pending) (operand : Expr) :
    (met pending [] operand).finish = .ok (pending.finish operand).toPostfix := by
  have hstack : (met pending [] operand).stack.any Token.isParenthesis = false := by
    rw [met, below, List.flatMap_nil, List.append_nil]
    exact any_isParenthesis_eq_false fun _ => Pending.isParenthesis_of_mem_operators
  have hresult : (met pending [] operand).output.reverse ++ (met pending [] operand).stack =
      (pending.finish operand).toPostfix := by
    simp [met, below, settled, Pending.toPostfix_finish]
  have hordered : (pending.finish operand).toPostfix.any Token.isParenthesis = false :=
    any_isParenthesis_eq_false fun _ => isParenthesis_of_mem_toPostfix
  rw [finish, hstack]
  simp only [hresult, hordered, Bool.false_eq_true, if_false]

theorem finish_met_group (pending pending' : Pending) (outer : List Pending) (operand : Expr) :
    (met pending (pending' :: outer) operand).finish = .error .unmatchedParenthesis := by
  have hstack : (met pending (pending' :: outer) operand).stack.any Token.isParenthesis := by
    simp [met, below, Token.isParenthesis]
  rw [finish, if_pos hstack]

end Yard

end InfixArithmetic
