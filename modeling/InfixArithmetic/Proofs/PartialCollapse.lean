import InfixArithmetic.Proofs.CollapseHeight

/-!
Expressions some of whose subtrees have been replaced by their values. Every collapse leaves such an
expression behind, also one that stops early, and neither an evaluation nor a further collapse can
tell it from the original. Main statement: the result of a collapse does not depend on the
collapses before it.
-/

namespace InfixArithmetic.Expr

variable {op : Operator} {left right : Expr} {height : Nat}

theorem failure_collapse_zero_congr {e e' : Expr} (h : e'.evaluate = e.evaluate) :
    (e'.collapse 0).failure = (e.collapse 0).failure := by
  cases hvalue : e.evaluate with
  | ok value => rw [collapse_zero_of_ok hvalue, collapse_zero_of_ok (h.trans hvalue)]
  | error error => rw [collapse_zero_of_error hvalue, collapse_zero_of_error (h.trans hvalue)]

theorem collapse_zero_congr {e e' : Expr} (h : e'.evaluate = e.evaluate)
    (hok : (e.collapse 0).failure = none) : e'.collapse 0 = e.collapse 0 := by
  cases hvalue : e.evaluate with
  | ok value => rw [collapse_zero_of_ok hvalue, collapse_zero_of_ok (h.trans hvalue)]
  | error error =>
      rw [collapse_zero_of_error hvalue] at hok
      cases hok

theorem failure_collapse_of_evaluate {e : Expr} {value : Value} (h : e.evaluate = .ok value)
    (height : Nat) : (e.collapse height).failure = none := by
  induction e generalizing height value with
  | literal _ => rw [collapse_literal]
  | operation op left right ihLeft ihRight =>
      cases height with
      | zero => rw [collapse_zero_of_ok h]
      | succ height =>
          obtain ⟨a, b, hleft, hright, -⟩ := evaluate_operation_eq_ok_iff.mp h
          exact failure_collapse_succ_eq_none_iff.mpr ⟨ihLeft hleft height, ihRight hright height⟩

/-- The second expression is the first one with some subtrees replaced by their values. All of them
are rooted at least `depth` edges below the root. -/
inductive PartlyCollapsed : (depth : Nat) → Expr → Expr → Prop where
  | literal (depth : Nat) (value : Value) :
      PartlyCollapsed depth (literal value) (literal value)
  | value {e : Expr} {value : Value} :
      e.evaluate = .ok value → PartlyCollapsed 0 e (.literal value)
  | operation {depth : Nat} {op : Operator} {left left' right right' : Expr} :
      PartlyCollapsed (depth - 1) left left' → PartlyCollapsed (depth - 1) right right' →
      PartlyCollapsed depth (operation op left right) (operation op left' right')

namespace PartlyCollapsed

variable {depth : Nat} {e e' e'' : Expr}

theorem refl (depth : Nat) (e : Expr) : PartlyCollapsed depth e e := by
  induction e generalizing depth with
  | literal value => exact .literal depth value
  | operation op left right ihLeft ihRight =>
      exact .operation (ihLeft (depth - 1)) (ihRight (depth - 1))

theorem mono (h : PartlyCollapsed depth e e') {depth' : Nat} (hle : depth' ≤ depth) :
    PartlyCollapsed depth' e e' := by
  induction h generalizing depth' with
  | literal _ value => exact .literal depth' value
  | value hvalue =>
      rw [Nat.le_zero.mp hle]
      exact .value hvalue
  | operation _ _ ihLeft ihRight =>
      have hle' := Nat.sub_le_sub_right hle 1
      exact .operation (ihLeft hle') (ihRight hle')

theorem evaluate_eq (h : PartlyCollapsed depth e e') : e'.evaluate = e.evaluate := by
  induction h with
  | literal _ _ => rfl
  | value hvalue => rw [hvalue, evaluate]
  | operation _ _ ihLeft ihRight => rw [evaluate, evaluate, ihLeft, ihRight]

theorem trans (h : PartlyCollapsed depth e e') (k : PartlyCollapsed depth e' e'') :
    PartlyCollapsed depth e e'' := by
  induction h generalizing e'' with
  | literal _ _ => exact k
  | value hvalue =>
      cases k with
      | literal _ _ => exact .value hvalue
      | value hvalue' =>
          cases hvalue'
          exact .value hvalue
  | operation hleft hright ihLeft ihRight =>
      cases k with
      -- What replaces the partly collapsed operation is also the value of the original one.
      | value hvalue =>
          rw [(hleft.operation hright).evaluate_eq] at hvalue
          exact .value hvalue
      | operation kleft kright => exact .operation (ihLeft kleft) (ihRight kright)

theorem expr_collapse (height : Nat) (e : Expr) :
    PartlyCollapsed height e (e.collapse height).expr := by
  induction e generalizing height with
  | literal value =>
      rw [collapse_literal]
      exact .literal height value
  | operation op left right ihLeft ihRight =>
      cases height with
      | zero =>
          cases hevaluate : (Expr.operation op left right).evaluate with
          | ok value =>
              rw [collapse_zero_of_ok hevaluate]
              exact .value hevaluate
          | error error =>
              rw [collapse_zero_of_error hevaluate]
              exact refl 0 _
      | succ height =>
          cases hleft : (left.collapse height).failure with
          | none =>
              rw [collapse_succ_of_ok hleft]
              exact .operation (ihLeft height) (ihRight height)
          | some error =>
              rw [collapse_succ_of_error hleft]
              exact .operation (ihLeft height) (refl height right)

theorem failure_collapse_eq (h : PartlyCollapsed depth e e') (height : Nat) :
    (e'.collapse height).failure = (e.collapse height).failure := by
  induction h generalizing height with
  | literal _ _ => rfl
  | value hvalue => rw [collapse_literal, failure_collapse_of_evaluate hvalue]
  | @operation _ op left left' right right' hleft hright ihLeft ihRight =>
      cases height with
      | zero =>
          have hwhole : PartlyCollapsed 0 (Expr.operation op left right)
              (Expr.operation op left' right') :=
            .operation (hleft.mono (Nat.zero_le _)) (hright.mono (Nat.zero_le _))
          exact failure_collapse_zero_congr hwhole.evaluate_eq
      | succ height => rw [failure_collapse_succ, failure_collapse_succ, ihLeft, ihRight]

/-- A collapse that succeeds brings the partly collapsed expression back in line with the
original, unless something above its height has been replaced. -/
theorem collapse_eq (h : PartlyCollapsed depth e e') (hok : (e.collapse depth).failure = none) :
    e'.collapse depth = e.collapse depth := by
  induction h with
  | literal _ _ => rfl
  | value hvalue => rw [collapse_literal, collapse_zero_of_ok hvalue]
  | @operation depth op left left' right right' hleft hright ihLeft ihRight =>
      cases depth with
      | zero =>
          have hwhole : PartlyCollapsed 0 (Expr.operation op left right)
              (Expr.operation op left' right') := .operation hleft hright
          exact collapse_zero_congr hwhole.evaluate_eq hok
      -- Nothing is replaced at the root, so both collapses go on to the operands.
      | succ depth =>
          obtain ⟨hokLeft, hokRight⟩ := failure_collapse_succ_eq_none_iff.mp hok
          have hleft' := ihLeft hokLeft
          have hright' := ihRight hokRight
          rw [Nat.add_sub_cancel] at hleft' hright'
          have hokLeft' : (left'.collapse depth).failure = none := by rw [hleft', hokLeft]
          rw [collapse_succ_of_ok hokLeft, collapse_succ_of_ok hokLeft', hleft', hright']

end PartlyCollapsed

/-- A collapse never changes what an expression means. Also after one that has stopped early, the
expression has the value that it had, or fails with the error that it failed with. -/
theorem evaluate_after_collapse (e : Expr) (height : Nat) :
    (e.collapse height).expr.evaluate = e.evaluate := by
  have hpart := PartlyCollapsed.expr_collapse height e
  exact hpart.evaluate_eq

theorem collapse_eq_of_failure_eq_none {e : Expr} (h : (e.collapse height).failure = none) :
    e.collapse height = ⟨(e.collapse height).expr, none⟩ := by
  rw [← h]

theorem collapse_collapse {e : Expr} {height' : Nat} (h : (e.collapse height).failure = none)
    (h' : ((e.collapse height).expr.collapse height').failure = none) :
    (e.collapse height).expr.collapse height' = e.collapse (min height height') := by
  have hpart := PartlyCollapsed.expr_collapse height e
  rcases Nat.le_total height height' with hle | hle
  · have hlow : (e.collapse height).expr.height ≤ height' := by
      rw [height_collapse h]
      omega
    rw [Nat.min_eq_left hle, collapse_of_height_le hlow, collapse_eq_of_failure_eq_none h]
  · rw [hpart.failure_collapse_eq] at h'
    rw [Nat.min_eq_right hle, (hpart.mono hle).collapse_eq h']

/-- What is left of an expression after collapses to several heights in turn. Each of them works on
what the one before it has left, also if that one has stopped early. -/
def collapseInTurn (e : Expr) (heights : List Nat) : Expr :=
  heights.foldl (fun e height => (e.collapse height).expr) e

theorem partlyCollapsed_collapseInTurn {depth : Nat} {heights : List Nat} (e : Expr)
    (h : ∀ height ∈ heights, depth ≤ height) :
    PartlyCollapsed depth e (e.collapseInTurn heights) := by
  induction heights generalizing e with
  | nil => exact .refl depth e
  | cons height rest ih =>
      obtain ⟨hheight, hrest⟩ := List.forall_mem_cons.mp h
      have hfirst := (PartlyCollapsed.expr_collapse height e).mono hheight
      exact hfirst.trans (ih (e.collapse height).expr hrest)

/-- A collapse that stops at a division by zero has replaced the sum before it, not the one
after. -/
example :
    let sum := operation .add (literal { toInt := 1 }) (literal { toInt := 1 })
    let quotient := operation .divide (literal { toInt := 1 }) (literal 0)
    (operation .subtract (operation .multiply sum quotient) sum).collapseInTurn [2] =
      operation .subtract (operation .multiply (literal { toInt := 2 }) quotient) sum := by rfl

/-- A collapse does not depend on those before it. It fails, or does not fail, exactly as it does on
the original expression; and if it succeeds and none before it was to a lesser height, it leaves
the same expression too. -/
theorem collapse_after_collapseInTurn (e : Expr) (earlier : List Nat) (height : Nat) :
    ((e.collapseInTurn earlier).collapse height).failure = (e.collapse height).failure ∧
    (((e.collapseInTurn earlier).collapse height).failure = none →
      (∀ other ∈ earlier, height ≤ other) →
      ((e.collapseInTurn earlier).collapse height).expr = (e.collapse height).expr) := by
  have hany : PartlyCollapsed 0 e (e.collapseInTurn earlier) :=
    partlyCollapsed_collapseInTurn e fun other _ => Nat.zero_le other
  refine ⟨hany.failure_collapse_eq height, ?_⟩
  intro hok hearlier
  rw [hany.failure_collapse_eq height] at hok
  rw [(partlyCollapsed_collapseInTurn e hearlier).collapse_eq hok]

theorem collapse_after_collapseInTurn_of_sums :
    let sum (a b : Expr) := operation .add a b
    let one := literal { toInt := 1 }
    let e := operation .multiply (sum (sum one one) one) (sum one (sum one one))
    let three := literal { toInt := 3 }
    ((e.collapseInTurn [2, 5, 2]).collapse 1).failure = none ∧
      (∀ other ∈ [2, 5, 2], 1 ≤ other) ∧
      ((e.collapseInTurn [2, 5, 2]).collapse 1).expr = (e.collapse 1).expr ∧
      (e.collapse 1).expr = operation .multiply three three := by
  intro sum one e three
  have hok : ((e.collapseInTurn [2, 5, 2]).collapse 1).failure = none := by rfl
  have hearlier : ∀ other ∈ [2, 5, 2], 1 ≤ other := by decide
  exact ⟨hok, hearlier, (collapse_after_collapseInTurn e [2, 5, 2] 1).2 hok hearlier, by rfl⟩

end InfixArithmetic.Expr
