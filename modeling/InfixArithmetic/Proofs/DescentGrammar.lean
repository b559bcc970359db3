import InfixArithmetic.Proofs.Derivation
import InfixArithmetic.Proofs.PendingOperations

/-!
The outcome of reading by the grammar, level by level, against derivations of the grammar.
Soundness follows the recursion of the reader and keeps track of the tokens read for the waiting
operations; completeness follows the derivation and runs the reader over its tokens. Main
statement: a level is read as an expression exactly when it derives that expression.
-/

namespace InfixArithmetic.Descent

open Grammar

theorem operandAt_eq_literal_iff {level : List Token} {position : Nat} {value : Value} :
    operandAt level position = .ok (.literal value) ↔
      level[position]? = some (.literal value) := by
  unfold operandAt
  split
  · simp_all
  · split <;> simp_all
  · simp_all
  · simp_all

theorem operandAt_eq_group_iff {level : List Token} {position close : Nat} :
    operandAt level position = .ok (.group close) ↔
      ∃ inside rest, level.drop position = .openParen :: (inside ++ .closeParen :: rest) ∧
        Bracket.Balanced inside ∧ close = position + 1 + inside.length := by
  constructor
  · intro h
    unfold operandAt at h
    split at h
    · cases h
    next hopen =>
      have hdrop := drop_eq_cons_of_getElem? hopen
      split at h
      next hclose =>
        cases h
        obtain ⟨inside, rest, hafter, hinside, rfl⟩ :=
          (Bracket.matchingClose?_eq_some_iff hdrop).mp hclose
        rw [hafter] at hdrop
        exact ⟨inside, rest, hdrop, hinside, rfl⟩
      next => cases h
    · cases h
    · cases h
  · rintro ⟨inside, rest, hdrop, hinside, rfl⟩
    have hclose := (Bracket.matchingClose?_eq_some_iff hdrop).mpr
      ⟨inside, rest, rfl, hinside, rfl⟩
    rw [operandAt, getElem?_of_drop_eq_cons hdrop]
    simp only [hclose]

theorem outcome_expression (level : List Token) :
    (expression level).outcome =
      (checkEdges level).bind fun _ => (factor level {} 0).outcome := by
  rw [expression, Traced.outcome_bind, Traced.outcome_ofExcept]

theorem outcome_factor_of_group {level : List Token} {position close : Nat}
    (pending : Pending) (h : operandAt level position = .ok (.group close)) :
    (factor level pending position).outcome =
      (expression (level.extract (position + 1) close)).outcome.bind fun inside =>
        (afterFactor level pending inside (close + 1)).outcome := by
  rw [factor_of_group pending h]
  simp only [Traced.outcome_bind, Traced.outcome_log]
  rfl

/-- After an operand the level ends, or an operator makes the next operand due. -/
theorem outcome_afterFactor (level : List Token) (pending : Pending) (operand : Expr)
    (position : Nat) :
    (afterFactor level pending operand position).outcome =
      match level[position]? with
      | some (.operator op) =>
          (factor level (pending.next operand op) (position + 1)).outcome
      | some .closeParen => .error .unmatchedParenthesis
      | some token => .error (.unexpected token)
      | none => .ok (pending.finish operand) := by
  rw [afterFactor, Traced.outcome_bind, outcome_complete, Except.bind]
  split
  next op htoken =>
    simp only [htoken]
    split
    next hop =>
      rw [Pending.next_of_additive pending operand hop, Traced.outcome_bind, outcome_complete]
      rfl
    next hop => rw [Pending.next_of_not_additive pending operand hop]
  next htoken =>
    rw [Traced.outcome_bind, outcome_complete, Except.bind]
    cases hposition : level[position]? with
    | none => rfl
    | some token =>
        cases token with
        | operator op => exact absurd hposition (htoken op)
        | _ => rfl

-- What carries the induction is that the tokens before the position have been read for the pending
-- operations.
theorem derivation_of_outcome :
    (∀ level, ∀ e, (expression level).outcome = .ok e → Expression level e) ∧
    (∀ level pending position, ∀ e, Reads (level.take position) pending →
      (factor level pending position).outcome = .ok e → Expression level e) ∧
    (∀ level pending operand position, ∀ e before second,
      level.take position = before ++ second → Reads before pending → Factor second operand →
      (afterFactor level pending operand position).outcome = .ok e → Expression level e) := by
  apply reader_induct
  case level =>
    intro level ih e h
    rw [outcome_expression, Traced.bind_eq_ok_iff] at h
    obtain ⟨-, -, hfactor⟩ := h
    exact ih e .nothing hfactor
  case noOperand =>
    intro level pending position error hoperand e _ h
    simp [factor_of_error pending hoperand] at h
  case literal =>
    intro level pending position value hoperand ih e hreads h
    rw [factor_of_literal pending hoperand] at h
    have htoken := operandAt_eq_literal_iff.mp hoperand
    exact ih e _ _ (take_succ_of_getElem? htoken) hreads (.literal value) h
  case group =>
    intro level pending position close hoperand ihInside ihAfter e hreads h
    obtain ⟨inside, rest, hdrop, -, rfl⟩ := operandAt_eq_group_iff.mp hoperand
    rw [outcome_factor_of_group pending hoperand, extract_of_drop_eq_group hdrop,
      Traced.bind_eq_ok_iff] at h
    obtain ⟨operand, hinside, hafter⟩ := h
    rw [extract_of_drop_eq_group hdrop] at ihInside
    have hgroup : Factor (.openParen :: inside ++ [.closeParen]) operand :=
      .group (ihInside operand hinside)
    exact ihAfter operand e _ _ (take_of_drop_eq_group hdrop) hreads hgroup hafter
  case afterOperand =>
    intro level pending operand position ih e before second hsplit hreads hfactor h
    rw [outcome_afterFactor] at h
    split at h
    next op htoken =>
      have hnext := hreads.next hfactor op
      rw [← hsplit, ← take_succ_of_getElem? htoken] at hnext
      exact ih op htoken e hnext h
    next => cases h
    next => cases h
    next hend =>
      cases h
      rw [List.take_of_length_le (List.getElem?_eq_none_iff.mp hend)] at hsplit
      rw [hsplit]
      exact hreads.expression hfactor

theorem outcome_afterFactor_join_product (level : List Token) (sum : Option OpenOperation)
    (left right : Expr) (op : Operator) (position : Nat) :
    (afterFactor level { sum, product := some ⟨left, op⟩ } right position).outcome =
      (afterFactor level { sum } (.operation op left right) position).outcome := by
  rw [outcome_afterFactor, outcome_afterFactor]
  rfl

theorem outcome_afterFactor_join_sum {level : List Token} {position : Nat}
    (left right : Expr) (op : Operator)
    (h : ∀ op, level[position]? = some (.operator op) → op.isAdditive) :
    (afterFactor level { sum := some ⟨left, op⟩ } right position).outcome =
      (afterFactor level {} (.operation op left right) position).outcome := by
  rw [outcome_afterFactor, outcome_afterFactor]
  split
  next following htoken =>
    rw [Pending.next_of_additive _ _ (h following htoken),
      Pending.next_of_additive _ _ (h following htoken)]
    rfl
  · rfl
  · rfl
  · rfl

theorem outcome_afterFactor_step {level first second rest : List Token} {position : Nat}
    {op : Operator} (pending : Pending) (operand : Expr)
    (h : level.drop position = first ++ .operator op :: second ++ rest) :
    level.drop (position + first.length + 1) = second ++ rest ∧
      position + first.length + 1 + second.length =
        position + (first ++ .operator op :: second).length ∧
      (afterFactor level pending operand (position + first.length)).outcome =
        (factor level (pending.next operand op) (position + first.length + 1)).outcome := by
  rw [List.append_assoc] at h
  have hop := drop_add_of_drop_eq_append h
  refine ⟨?_, ?_, ?_⟩
  · rw [← List.drop_drop, hop]
    rfl
  · simp only [List.length_append, List.length_cons]
    omega
  · rw [outcome_afterFactor, getElem?_of_drop_eq_cons hop]

theorem outcome_expression_of_read {level : List Token} {e : Expr}
    (hedges : checkEdges level = .ok ())
    (hread : (factor level {} 0).outcome =
      (afterFactor level {} e (0 + level.length)).outcome) :
    (expression level).outcome = .ok e := by
  have hend : level[0 + level.length]? = none := by simp
  rw [outcome_afterFactor, hend] at hread
  rw [outcome_expression, hedges]
  exact hread

-- By recursion on the derivation. Only an expression needs to know what comes next: before a
-- multiplicative operator its last term would go on.
mutual

theorem outcome_factor_over_expression {level tokens rest : List Token} {e : Expr} {position : Nat}
    (hdrop : level.drop position = tokens ++ rest)
    (hrest : ∀ op, rest.head? = some (.operator op) → op.isAdditive) :
    Expression tokens e →
      (factor level {} position).outcome =
        (afterFactor level {} e (position + tokens.length)).outcome
  | .term h => outcome_factor_over_term none hdrop h
  | @Expression.sum first second left right op hsign h k => by
      have hop := Operator.isAdditive_iff.mpr hsign
      obtain ⟨hdrop', hlength, hstep⟩ := outcome_afterFactor_step {} left hdrop
      have hrest' : ∀ op, level[position + first.length + 1 + second.length]? =
          some (.operator op) → op.isAdditive := by
        intro following hfollowing
        apply hrest
        rw [← drop_add_of_drop_eq_append hdrop', List.head?_drop]
        exact hfollowing
      rw [List.append_assoc] at hdrop
      have hfirst := outcome_factor_over_expression hdrop (by simp [hop]) h
      rw [hfirst, hstep, Pending.next_of_additive _ _ hop, outcome_factor_over_term _ hdrop' k,
        outcome_afterFactor_join_sum _ _ _ hrest', hlength]
      rfl

theorem outcome_factor_over_term {level tokens rest : List Token} {e : Expr} {position : Nat}
    (sum : Option OpenOperation) (hdrop : level.drop position = tokens ++ rest) :
    Term tokens e →
      (factor level { sum } position).outcome =
        (afterFactor level { sum } e (position + tokens.length)).outcome
  | .factor h => outcome_factor_over_factor { sum } hdrop h
  | @Term.product first second left right op hsign h k => by
      have hop := Operator.not_isAdditive_iff.mpr hsign
      obtain ⟨hdrop', hlength, hstep⟩ := outcome_afterFactor_step { sum } left hdrop
      rw [List.append_assoc] at hdrop
      rw [outcome_factor_over_term sum hdrop h, hstep, Pending.next_of_not_additive _ _ hop,
        outcome_factor_over_factor _ hdrop' k, outcome_afterFactor_join_product, hlength]
      rfl

theorem outcome_factor_over_factor {level tokens rest : List Token} {e : Expr} {position : Nat}
    (pending : Pending) (hdrop : level.drop position = tokens ++ rest) :
    Factor tokens e →
      (factor level pending position).outcome =
        (afterFactor level pending e (position + tokens.length)).outcome
  | .literal value => by
      have htoken := getElem?_of_drop_eq_cons hdrop
      rw [factor_of_literal pending (operandAt_eq_literal_iff.mpr htoken)]
      rfl
  | @Factor.group inside e h => by
      have hgroup : level.drop position = .openParen :: (inside ++ .closeParen :: rest) := by
        simpa using hdrop
      have hoperand := operandAt_eq_group_iff.mpr ⟨inside, rest, hgroup, h.balanced, rfl⟩
      have hwhole : inside.drop 0 = inside ++ [] := by simp
      have hinside := outcome_expression_of_read h.checkEdges
        (outcome_factor_over_expression hwhole (by simp) h)
      have hlength : position + 1 + inside.length + 1 =
          position + (Token.openParen :: inside ++ [Token.closeParen]).length := by
        simp only [List.length_append, List.length_cons, List.length_nil]
        omega
      rw [outcome_factor_of_group pending hoperand, extract_of_drop_eq_group hgroup, hinside,
        ← hlength]
      rfl

end

theorem outcome_expression_eq_ok_iff {level : List Token} {e : Expr} :
    (expression level).outcome = .ok e ↔ Expression level e := by
  constructor
  · exact derivation_of_outcome.1 level e
  · intro h
    have hwhole : level.drop 0 = level ++ [] := by simp
    exact outcome_expression_of_read h.checkEdges
      (outcome_factor_over_expression hwhole (by simp) h)

end InfixArithmetic.Descent
