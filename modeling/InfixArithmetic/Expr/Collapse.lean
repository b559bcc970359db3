import InfixArithmetic.Expr.Evaluation

namespace InfixArithmetic

/-- The result of a collapse that may have stopped early: the expression as it stands then, and the
error that stopped it. -/
structure Collapsed where
  expr : Expr
  failure : Option EvalError
deriving DecidableEq, Repr

namespace Expr

/-- Replaces every subtree rooted `height` edges below the root by its value, from left to right.
The first one without a value stops the collapse, and what has been replaced before it stays
replaced. -/
def collapse : (height : Nat) → Expr → Collapsed
  | 0, e =>
      match e.evaluate with
      | .ok value => ⟨literal value, none⟩
      | .error error => ⟨e, some error⟩
  | _ + 1, literal value => ⟨literal value, none⟩
  | height + 1, operation op left right =>
      let left' := collapse height left
      match left'.failure with
      | some error => ⟨operation op left'.expr right, some error⟩
      | none =>
          let right' := collapse height right
          ⟨operation op left'.expr right'.expr, right'.failure⟩

theorem collapse_zero_of_ok {e : Expr} {value : Value} (h : e.evaluate = .ok value) :
    e.collapse 0 = ⟨literal value, none⟩ := by
  rw [collapse, h]

theorem collapse_zero_of_error {e : Expr} {error : EvalError} (h : e.evaluate = .error error) :
    e.collapse 0 = ⟨e, some error⟩ := by
  rw [collapse, h]

theorem collapse_literal (height : Nat) (value : Value) :
    (literal value).collapse height = ⟨literal value, none⟩ := by
  cases height <;> rfl

variable {op : Operator} {left right : Expr} {height : Nat}

theorem collapse_succ_of_error {error : EvalError}
    (h : (left.collapse height).failure = some error) :
    (operation op left right).collapse (height + 1) =
      ⟨operation op (left.collapse height).expr right, some error⟩ := by
  simp only [collapse, h]

theorem collapse_succ_of_ok (h : (left.collapse height).failure = none) :
    (operation op left right).collapse (height + 1) =
      ⟨operation op (left.collapse height).expr (right.collapse height).expr,
        (right.collapse height).failure⟩ := by
  simp only [collapse, h]

theorem failure_collapse_succ :
    ((operation op left right).collapse (height + 1)).failure =
      (left.collapse height).failure.or (right.collapse height).failure := by
  cases h : (left.collapse height).failure with
  | none => rw [collapse_succ_of_ok h, Option.none_or]
  | some error => rw [collapse_succ_of_error h, Option.some_or]

theorem failure_collapse_succ_eq_none_iff :
    ((operation op left right).collapse (height + 1)).failure = none ↔
      (left.collapse height).failure = none ∧ (right.collapse height).failure = none := by
  rw [failure_collapse_succ, Option.or_eq_none_iff]

end Expr

end InfixArithmetic
