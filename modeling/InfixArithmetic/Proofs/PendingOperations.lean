import InfixArithmetic.Descent
import InfixArithmetic.Grammar

namespace InfixArithmetic.Descent

open Grammar

def join (operation : Option OpenOperation) (right : Expr) : Expr :=
  match operation with
  | none => right
  | some operation => .operation operation.op operation.left right

@[simp] theorem join_none (right : Expr) : join none right = right := rfl

@[simp] theorem join_some (operation : OpenOperation) (right : Expr) :
    join (some operation) right = .operation operation.op operation.left right := rfl

@[simp] theorem outcome_complete (operation : Option OpenOperation) (right : Expr) :
    (complete operation right).outcome = .ok (join operation right) := by
  cases operation <;> rfl

namespace Pending

/-- The expression of a nesting level that ends after an operand. -/
def finish (pending : Pending) (operand : Expr) : Expr :=
  join pending.sum (join pending.product operand)

/-- The operations that wait after an operand and an operator. -/
def next (pending : Pending) (operand : Expr) (op : Operator) : Pending :=
  if op.isAdditive then
    { sum := some ⟨pending.finish operand, op⟩ }
  else
    { pending with product := some ⟨join pending.product operand, op⟩ }

/-- Each operation waits in the place for its precedence. -/
def Ranked (pending : Pending) : Prop :=
  (∀ operation ∈ pending.sum, operation.op.isAdditive) ∧
    ∀ operation ∈ pending.product, ¬operation.op.isAdditive

theorem next_of_additive {op : Operator} (pending : Pending) (operand : Expr)
    (h : op.isAdditive) :
    pending.next operand op = { sum := some ⟨pending.finish operand, op⟩ } := by
  rw [next, if_pos h]

theorem next_of_not_additive {op : Operator} (pending : Pending) (operand : Expr)
    (h : ¬op.isAdditive) :
    pending.next operand op =
      { pending with product := some ⟨join pending.product operand, op⟩ } := by
  rw [next, if_neg h]

theorem ranked_empty : Ranked {} := by
  constructor <;> simp

theorem Ranked.next {pending : Pending} (h : pending.Ranked) (operand : Expr) (op : Operator) :
    (pending.next operand op).Ranked := by
  by_cases hop : op.isAdditive
  · rw [next_of_additive pending operand hop]
    constructor <;> simp [hop]
  · rw [next_of_not_additive pending operand hop]
    exact ⟨h.1, by simp [hop]⟩

end Pending

/-- Induction over the reader. After an operator the operations that wait are told in the same way
for either precedence. -/
theorem reader_induct {onLevel : List Token → Prop} {onDue : List Token → Pending → Nat → Prop}
    {onMet : List Token → Pending → Expr → Nat → Prop}
    (level : ∀ level, onDue level {} 0 → onLevel level)
    (noOperand : ∀ level pending position error, operandAt level position = .error error →
      onDue level pending position)
    (literal : ∀ level pending position value, operandAt level position = .ok (.literal value) →
      onMet level pending (.literal value) (position + 1) → onDue level pending position)
    (group : ∀ level pending position close, operandAt level position = .ok (.group close) →
      onLevel (level.extract (position + 1) close) →
      (∀ inside, onMet level pending inside (close + 1)) → onDue level pending position)
    (afterOperand : ∀ level pending operand position,
      (∀ op, level[position]? = some (.operator op) →
        onDue level (pending.next operand op) (position + 1)) →
      onMet level pending operand position) :
    (∀ level, onLevel level) ∧ (∀ level pending position, onDue level pending position) ∧
      ∀ level pending operand position, onMet level pending operand position := by
  apply expression.mutual_induct onLevel onDue onMet level noOperand literal group
  intro level pending operand position ihSum ihProduct
  apply afterOperand
  intro op htoken
  by_cases hop : op.isAdditive
  · rw [Pending.next_of_additive pending operand hop]
    exact ihSum op htoken _
  · rw [Pending.next_of_not_additive pending operand hop]
    exact ihProduct _ op htoken

/-- The tokens that have been read at a nesting level when an operand is due. -/
inductive Reads : List Token → Pending → Prop where
  | nothing : Reads [] {}
  | sum {first : List Token} {left : Expr} {op : Operator} :
      op.isAdditive → Expression first left →
      Reads (first ++ [.operator op]) { sum := some ⟨left, op⟩ }
  | product {before first : List Token} {sum : Option OpenOperation} {left : Expr}
      {op : Operator} :
      ¬op.isAdditive → Reads before { sum } → Term first left →
      Reads (before ++ (first ++ [.operator op])) { sum, product := some ⟨left, op⟩ }

namespace Reads

theorem ranked {before : List Token} {pending : Pending} (h : Reads before pending) :
    pending.Ranked := by
  induction h with
  | nothing => exact Pending.ranked_empty
  | sum hop _ => constructor <;> simp [hop]
  | product hop _ _ ih => exact ⟨ih.1, by simp [hop]⟩

theorem exists_term {before second : List Token} {pending : Pending} {operand : Expr}
    (h : Reads before pending) (k : Factor second operand) :
    ∃ first term, before ++ second = first ++ term ∧ Reads first { sum := pending.sum } ∧
      Term term (join pending.product operand) := by
  cases h with
  | nothing => exact ⟨[], second, rfl, .nothing, .factor k⟩
  | sum hop hleft => exact ⟨_, second, rfl, .sum hop hleft, .factor k⟩
  | product hop hbefore hleft =>
      refine ⟨_, _, ?_, hbefore, .product (Operator.not_isAdditive_iff.mp hop) hleft k⟩
      simp

theorem expression_of_term {before second : List Token} {sum : Option OpenOperation}
    {term : Expr} (h : Reads before { sum }) (k : Term second term) :
    Expression (before ++ second) (join sum term) := by
  cases h with
  | nothing => exact .term k
  | sum hop hleft =>
      rw [List.append_assoc]
      exact .sum (Operator.isAdditive_iff.mp hop) hleft k

theorem expression {before second : List Token} {pending : Pending} {operand : Expr}
    (h : Reads before pending) (k : Factor second operand) :
    Expression (before ++ second) (pending.finish operand) := by
  obtain ⟨first, term, hsplit, hfirst, hterm⟩ := h.exists_term k
  rw [hsplit]
  exact hfirst.expression_of_term hterm

theorem next {before second : List Token} {pending : Pending} {operand : Expr}
    (h : Reads before pending) (k : Factor second operand) (op : Operator) :
    Reads (before ++ second ++ [.operator op]) (pending.next operand op) := by
  by_cases hop : op.isAdditive
  · rw [Pending.next_of_additive pending operand hop]
    exact .sum hop (h.expression k)
  · rw [Pending.next_of_not_additive pending operand hop]
    obtain ⟨first, term, hsplit, hfirst, hterm⟩ := h.exists_term k
    rw [hsplit, List.append_assoc]
    exact .product hop hfirst hterm

end Reads

end InfixArithmetic.Descent
