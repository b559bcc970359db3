import InfixArithmetic.Proofs.OperandCalls

namespace InfixArithmetic.Descent

/-- A call starts at a token and moves on, even if it fails, but not out of its level. If it
succeeds then it has gone over a factor. The slice that it takes for a group is balanced, and within
the level. -/
structure OperandCall.InRange (call : OperandCall) : Prop where
  start_lt_length : call.start < call.level.length
  start_lt_stop : call.start < call.stop
  stop_le_length : call.stop ≤ call.level.length
  factor : ∀ operand, call.outcome = .ok operand →
    Grammar.Factor (call.level.extract call.start call.stop) operand
  slice : ∀ close, operandAt call.level call.start = .ok (.group close) →
    call.start + 1 ≤ close ∧ close < call.level.length ∧
      Bracket.Balanced (call.level.extract (call.start + 1) close)

theorem slice_of_operandAt_group {level : List Token} {position close : Nat}
    (h : operandAt level position = .ok (.group close)) :
    position + 1 ≤ close ∧ close < level.length ∧
      Bracket.Balanced (level.extract (position + 1) close) := by
  obtain ⟨hclose, hlength⟩ := bounds_of_operandAt_group h
  obtain ⟨inside, rest, hdrop, hinside, rfl⟩ := operandAt_eq_group_iff.mp h
  rw [extract_of_drop_eq_group hdrop]
  exact ⟨hclose, hlength, hinside⟩

namespace OperandCall

variable {level : List Token} {start : Nat}

theorem inRange_of_error (error : SyntaxError) (h : start < level.length) :
    InRange ⟨level, start, past level start, .error error⟩ := by
  rw [past, if_pos h]
  exact {
    start_lt_length := h
    start_lt_stop := Nat.lt_succ_self start
    stop_le_length := h
    factor := by
      intro operand houtcome
      cases houtcome
    slice := fun _ => slice_of_operandAt_group }

theorem inRange_of_literal {value : Value} (h : operandAt level start = .ok (.literal value)) :
    InRange ⟨level, start, start + 1, .ok (.literal value)⟩ where
  start_lt_length := lt_length_of_operandAt h
  start_lt_stop := Nat.lt_succ_self start
  stop_le_length := lt_length_of_operandAt h
  factor := by
    intro operand houtcome
    cases houtcome
    rw [List.extract_eq_take_drop, drop_eq_cons_of_getElem? (operandAt_eq_literal_iff.mp h),
      Nat.add_sub_cancel_left]
    exact .literal value
  slice := fun _ => slice_of_operandAt_group

theorem inRange_of_group {close : Nat} {inside : Expr}
    (h : operandAt level start = .ok (.group close))
    (hinside : (expression (level.extract (start + 1) close)).outcome = .ok inside) :
    InRange ⟨level, start, close + 1, .ok inside⟩ := by
  obtain ⟨hclose, hlength⟩ := bounds_of_operandAt_group h
  obtain ⟨tokens, rest, hdrop, -, rfl⟩ := operandAt_eq_group_iff.mp h
  rw [extract_of_drop_eq_group hdrop] at hinside
  exact {
    start_lt_length := lt_length_of_operandAt h
    start_lt_stop := Nat.lt_succ_of_lt hclose
    stop_le_length := hlength
    factor := by
      intro operand houtcome
      cases houtcome
      rw [extract_group_of_drop_eq_group hdrop]
      exact .group (outcome_expression_eq_ok_iff.mp hinside)
    slice := fun _ => slice_of_operandAt_group }

theorem inRange_callAt (h : start < level.length) : (callAt level start).InRange := by
  cases hoperand : operandAt level start with
  | error error =>
      simp only [callAt, operandOf, hoperand]
      exact inRange_of_error error h
  | ok operand =>
      cases operand with
      | literal value =>
          simp only [callAt, operandOf, hoperand]
          exact inRange_of_literal hoperand
      | group close =>
          simp only [callAt, operandOf, hoperand]
          cases hinside : (expression (level.extract (start + 1) close)).outcome with
          | error error => exact inRange_of_error error h
          | ok inside => exact inRange_of_group hoperand hinside

end OperandCall

theorem Asks.edges_and_lt_length {tokens level : List Token} {start : Nat}
    (h : Asks tokens level start) : HasOperandEdges level ∧ start < level.length := by
  induction h with
  | first hedges =>
      have hlevel := checkEdges_eq_ok_iff.mp hedges
      exact ⟨hlevel, hlevel.length_pos⟩
  | after _ hleads ih =>
      cases hleads with
      | inside _ hedges =>
          have hlevel := checkEdges_eq_ok_iff.mp hedges
          exact ⟨hlevel, hlevel.length_pos⟩
      | next _ htoken => exact ⟨ih.1, ih.1.succ_lt_length_of_operator htoken⟩

theorem OperandCall.MadeBy.inRange {tokens : List Token} {call : OperandCall}
    (h : call.MadeBy tokens) : call.InRange := by
  obtain ⟨hasks, hcall⟩ := h
  rw [hcall]
  exact OperandCall.inRange_callAt hasks.edges_and_lt_length.2

theorem OperandCall.MadeBy.faithful {tokens : List Token} {call : OperandCall}
    (h : call.MadeBy tokens) : call.Faithful := by
  rw [h.2]
  exact faithful_callAt call.level call.start

/-- Whatever the tokens, reading them comes down to calls for operands each of which finds a token
where it starts and moves on within its level. A slice that is read as the inside of a group lies
within the level too, and its parentheses are balanced. Nothing is left out of the record: the
reader comes to the recorded outcome, it logs the groups that the recorded calls find, and it makes
the recorded calls and no others, going on from each of them as recorded. -/
theorem observeExpression_inRange (tokens : List Token) :
    (observeExpression tokens).outcome = (expression tokens).outcome ∧
      (observeExpression tokens).calls.filterMap OperandCall.group? =
        loggedGroups (expression tokens) ∧
      (∀ call, call ∈ (observeExpression tokens).calls ↔ call.MadeBy tokens) ∧
      (∀ call ∈ (observeExpression tokens).calls, call.Faithful) ∧
      ∀ call ∈ (observeExpression tokens).calls, call.InRange := by
  refine ⟨outcome_observe.1 tokens, (loggedGroups_eq.1 tokens).symm, ?_, ?_, ?_⟩
  · intro call
    exact mem_calls_iff_madeBy
  · intro call hcall
    exact (mem_calls_iff_madeBy.mp hcall).faithful
  · intro call hcall
    exact (mem_calls_iff_madeBy.mp hcall).inRange

theorem observeExpression_inRange_of_nested_groups :
    let one : Token := .literal { toInt := 1 }
    let two : Token := .literal { toInt := 2 }
    let inside : List Token := [one, .operator .add, .openParen, two, .closeParen,
      .operator .multiply, .unrecognized "x"]
    let tokens : List Token := .openParen :: inside ++ [.closeParen]
    let group : OperandCall := ⟨inside, 2, 5, .ok (.literal { toInt := 2 })⟩
    let lost : OperandCall := ⟨inside, 6, 7, .error (.invalidFactor "x")⟩
    (observeExpression tokens).calls.map (fun call => (call.level.length, call.start, call.stop)) =
      [(9, 0, 1), (7, 0, 1), (7, 2, 5), (1, 0, 1), (7, 6, 7)] ∧
    (expression tokens).outcome = .error (.invalidFactor "x") ∧
    loggedGroups (expression tokens) = [.groupFound 0 8, .groupFound 2 4] ∧
    group ∈ (observeExpression tokens).calls ∧ group.InRange ∧ group.MadeBy tokens ∧
    lost ∈ (observeExpression tokens).calls ∧ lost.InRange ∧ lost.Faithful := by
  intro one two inside tokens group lost
  obtain ⟨houtcome, hgroups, hmade, hfaithful, hrange⟩ := observeExpression_inRange tokens
  have hgroup : group ∈ (observeExpression tokens).calls := by decide +kernel
  have hlost : lost ∈ (observeExpression tokens).calls := by decide +kernel
  refine ⟨by decide +kernel, ?_, ?_, hgroup, hrange group hgroup, (hmade group).mp hgroup, hlost,
    hrange lost hlost, hfaithful lost hlost⟩
  · rw [← houtcome]
    decide +kernel
  · rw [← hgroups]
    decide +kernel

end InfixArithmetic.Descent
