import InfixArithmetic.Expr.Collapse

namespace InfixArithmetic.Expr

variable {height : Nat} {e : Expr}

theorem height_collapse_zero (h : (e.collapse 0).failure = none) :
    (e.collapse 0).expr.height = 0 := by
  cases hvalue : e.evaluate with
  | ok value =>
      rw [collapse_zero_of_ok hvalue]
      rfl
  | error error =>
      rw [collapse_zero_of_error hvalue] at h
      cases h

theorem height_collapse (h : (e.collapse height).failure = none) :
    (e.collapse height).expr.height = min height e.height := by
  induction e generalizing height with
  | literal value =>
      rw [collapse_literal, Expr.height, Nat.min_zero]
  | operation op left right ihLeft ihRight =>
      cases height with
      | zero => rw [height_collapse_zero h, Nat.zero_min]
      | succ height =>
          obtain ⟨hleft, hright⟩ := failure_collapse_succ_eq_none_iff.mp h
          rw [collapse_succ_of_ok hleft, Expr.height, Expr.height, ihLeft hleft, ihRight hright]
          omega

theorem collapse_of_height_le (h : e.height ≤ height) : e.collapse height = ⟨e, none⟩ := by
  induction e generalizing height with
  | literal value => exact collapse_literal height value
  | operation op left right ihLeft ihRight =>
      rw [Expr.height] at h
      cases height with
      | zero => omega
      | succ height =>
          have hleft : left.collapse height = ⟨left, none⟩ := ihLeft (by omega)
          have hright : right.collapse height = ⟨right, none⟩ := ihRight (by omega)
          rw [collapse_succ_of_ok (by rw [hleft]), hleft, hright]

theorem expr_collapse_eq_self_iff (h : (e.collapse height).failure = none) :
    (e.collapse height).expr = e ↔ e.height ≤ height := by
  constructor
  · intro hsame
    have hheight := height_collapse h
    rw [hsame] at hheight
    omega
  · intro hle
    rw [collapse_of_height_le hle]

/-- The heights before and after a collapse. If it succeeds, what is left has the lesser of the
given height and the height of the expression, and it is the expression itself exactly if this was
not too high. A collapse to a height that is not exceeded succeeds, whether or not there is a value
for the expression. -/
theorem collapse_lowers_to_height (e : Expr) (height : Nat) :
    ((e.collapse height).failure = none →
      (e.collapse height).expr.height = min height e.height ∧
      ((e.collapse height).expr = e ↔ e.height ≤ height)) ∧
    (e.height ≤ height → (e.collapse height).failure = none) := by
  refine ⟨fun h => ⟨height_collapse h, expr_collapse_eq_self_iff h⟩, ?_⟩
  intro hle
  rw [collapse_of_height_le hle]

theorem collapse_lowers_to_height_of_quotient :
    let one := literal { toInt := 1 }
    let product := operation .multiply (operation .add one one) one
    let quotient := operation .divide (operation .subtract product one) (literal 0)
    quotient.evaluate = .error (.divisionByZero { toInt := 1 }) ∧
    ((quotient.collapse 2).failure = none ∧
      (quotient.collapse 2).expr.height = min 2 quotient.height ∧
      ((quotient.collapse 2).expr = quotient ↔ quotient.height ≤ 2)) ∧
    quotient.height ≤ 4 ∧ (quotient.collapse 4).failure = none := by
  intro one product quotient
  have hlower : (quotient.collapse 2).failure = none := by rfl
  have hheight : quotient.height ≤ 4 := by decide
  exact ⟨by rfl, ⟨hlower, (collapse_lowers_to_height quotient 2).1 hlower⟩, hheight,
    (collapse_lowers_to_height quotient 4).2 hheight⟩

end InfixArithmetic.Expr
