import InfixArithmetic.Proofs.EarliestError
import InfixArithmetic.Proofs.PostfixErrors

namespace InfixArithmetic

open Descent

/-- Both tokens are operators, and the first one binds more strongly. -/
def BindsTighter : Token → Token → Prop
  | .operator op, .operator op' => op'.precedence < op.precedence
  | _, _ => False

namespace Descent.Pending

theorem Ranked.pairwise_bindsTighter {pending : Pending} (h : pending.Ranked) :
    pending.operators.Pairwise BindsTighter ∧ pending.operators.length ≤ 2 := by
  obtain ⟨hsum, hproduct⟩ := h
  rcases pending with ⟨_ | sum, _ | product⟩
  · simp [operators]
  · simp [operators]
  · simp [operators]
  · have hadditive := hsum sum rfl
    have hmultiplicative := hproduct product rfl
    rw [Operator.isAdditive, beq_iff_eq] at hadditive hmultiplicative
    simp only [operators, Option.toList_some, List.cons_append, List.nil_append, List.map_cons,
      List.map_nil, List.pairwise_pair, BindsTighter, List.length_cons, List.length_nil]
    omega

theorem isOperator_of_mem_operators {pending : Pending} {token : Token}
    (h : token ∈ pending.operators) : token.isOperator = true := by
  obtain ⟨operation, -, rfl⟩ := List.mem_map.mp h
  rfl

/-- Each waiting operator has one left operand in the output, whose postfix order has one literal
more than operators. -/
theorem surplus_operands (pending : Pending) :
    Token.surplus pending.operands = pending.operators.countP Token.isOperator := by
  have hoperands : pending.operands = Expr.stackTokens
      ((pending.sum.toList ++ pending.product.toList).map OpenOperation.left).reverse := by
    rw [Expr.stackTokens, List.reverse_reverse, List.flatMap_map]
    rfl
  have hoperators : pending.operators.countP Token.isOperator =
      pending.product.toList.length + pending.sum.toList.length := by
    rw [List.countP_eq_length.mpr fun _ => isOperator_of_mem_operators, operators,
      List.length_map, List.length_append]
  rw [hoperands, Expr.surplus_stackTokens, hoperators, List.length_reverse, List.length_map,
    List.length_append, Nat.add_comm]

end Descent.Pending

theorem Token.surplus_reverse (tokens : List Token) : surplus tokens.reverse = surplus tokens := by
  rw [surplus, List.countP_reverse, List.countP_reverse, surplus]

namespace Yard

theorem splitOn_stack (pending : Pending) (outer : List Pending) :
    (pending.operators ++ below outer).splitOn .openParen =
      (pending :: outer).map Pending.operators := by
  have hlevel : ∀ pending : Pending, ∀ token ∈ pending.operators,
      (token == .openParen) = false := by
    intro pending token htoken
    rw [beq_eq_false_iff_ne]
    rintro rfl
    cases Pending.isOperator_of_mem_operators htoken
  induction outer generalizing pending with
  | nil =>
      rw [below, List.flatMap_nil, List.append_nil]
      exact List.splitOnP_eq_singleton (hlevel pending)
  | cons pending' outer ih =>
      have hbelow : below (pending' :: outer) =
          .openParen :: (pending'.operators ++ below outer) := rfl
      rw [hbelow, List.map_cons, ← ih pending']
      exact List.splitOnP_append_cons_of_forall_mem (hlevel pending) .openParen rfl _

theorem count_openParen_stack (pending : Pending) (outer : List Pending) :
    (pending.operators ++ below outer).count .openParen = outer.length := by
  have hlevel : ∀ pending : Pending, pending.operators.count .openParen = 0 := by
    intro pending
    rw [List.count_eq_zero]
    intro hmem
    cases Pending.isOperator_of_mem_operators hmem
  rw [List.count_append, hlevel, Nat.zero_add]
  induction outer with
  | nil => rfl
  | cons pending' outer ih =>
      rw [below, List.flatMap_cons, List.count_append, List.count_cons_self, hlevel, ← below, ih,
        List.length_cons, Nat.zero_add, Nat.add_comm]

theorem isOperator_or_eq_openParen_of_mem_stack {pending : Pending} {outer : List Pending}
    {token : Token} (h : token ∈ pending.operators ++ below outer) :
    token.isOperator = true ∨ token = .openParen := by
  rw [List.mem_append, below, List.mem_flatMap] at h
  rcases h with h | ⟨pending', -, h⟩
  · exact .inl (Pending.isOperator_of_mem_operators h)
  · rcases List.mem_cons.mp h with rfl | h
    · exact .inr rfl
    · exact .inl (Pending.isOperator_of_mem_operators h)

theorem surplus_settled (pending : Pending) (outer : List Pending) :
    Token.surplus (settled (pending :: outer)) =
      (pending.operators ++ below outer).countP Token.isOperator := by
  rw [settled, List.flatMap_cons, Token.surplus_append, Token.surplus_reverse,
    Pending.surplus_operands, List.countP_append]
  induction outer with
  | nil => rfl
  | cons pending' outer ih =>
      have hbelow : (below (pending' :: outer)).countP Token.isOperator =
          pending'.operators.countP Token.isOperator + (below outer).countP Token.isOperator := by
        rw [below, List.flatMap_cons, List.countP_append, List.countP_cons_of_neg (by decide),
          below]
      rw [hbelow, List.flatMap_cons, Token.surplus_append, Token.surplus_reverse,
        Pending.surplus_operands]
      omega

theorem isLiteral_or_isOperator_of_mem_toPostfix {e : Expr} {token : Token}
    (h : token ∈ e.toPostfix) : token.isLiteral = true ∨ token.isOperator = true :=
  Expr.forall_mem_toPostfix (P := fun token => token.isLiteral = true ∨ token.isOperator = true)
    (fun _ => .inl rfl) (fun _ => .inr rfl) e token h

theorem isLiteral_or_isOperator_of_mem_settled (outer : List Pending) {token : Token}
    (h : token ∈ settled outer) : token.isLiteral = true ∨ token.isOperator = true := by
  rw [settled, List.mem_flatMap] at h
  obtain ⟨pending, -, h⟩ := h
  rw [List.mem_reverse, Pending.operands, List.mem_flatMap] at h
  obtain ⟨operation, -, h⟩ := h
  exact isLiteral_or_isOperator_of_mem_toPostfix h

/-- What a yard is like when it has taken in the given tokens. -/
structure Orderly (tokens : List Token) (yard : Yard) : Prop where
  stack : ∀ token ∈ yard.stack, token.isOperator = true ∨ token = .openParen
  /-- Each group that is still open has its parenthesis on the stack. -/
  openGroups : Bracket.depthThrough 0 tokens = some (yard.stack.count .openParen)
  /-- Between parentheses precedence rises towards the top, which is the head of the stack. -/
  levels : ∀ level ∈ yard.stack.splitOn .openParen,
    level.Pairwise BindsTighter ∧ level.length ≤ 2
  output : ∀ token ∈ yard.output, token.isLiteral = true ∨ token.isOperator = true
  surplus : Token.surplus yard.output =
    yard.stack.countP Token.isOperator + if yard.expectOperand then 0 else 1

theorem Orderly.forall_not_isParenthesis {tokens : List Token} {yard : Yard}
    (h : Orderly tokens yard) : ∀ token ∈ yard.output, token.isParenthesis = false := by
  intro token htoken
  rcases h.output token htoken with hliteral | hoperator
  · cases token <;> simp_all [Token.isLiteral, Token.isParenthesis]
  · cases token <;> simp_all [Token.isOperator, Token.operator?, Token.isParenthesis]

theorem Orderly.finish_eq {tokens : List Token} {yard : Yard} (h : Orderly tokens yard) :
    yard.finish =
      if yard.stack.any Token.isParenthesis then .error .unmatchedParenthesis
      else .ok (yard.output.reverse ++ yard.stack) := by
  have houtput : yard.output.reverse.any Token.isParenthesis = false := by
    rw [List.any_reverse]
    exact any_isParenthesis_eq_false h.forall_not_isParenthesis
  rw [finish]
  split
  next => rfl
  next hstack =>
    rw [Bool.not_eq_true] at hstack
    have hresult : (yard.output.reverse ++ yard.stack).any Token.isParenthesis = false := by
      rw [List.any_append, houtput, hstack]
      rfl
    simp only [hresult, Bool.false_eq_true, if_false]

end Yard

theorem NestedReads.forall_ranked {before : List Token} {pending : Pending}
    {outer : List Pending} (h : NestedReads before pending outer) :
    ∀ pending' ∈ pending :: outer, pending'.Ranked := by
  induction h with
  | outermost hreads => simpa using hreads.ranked
  | group _ hreads ih => exact List.forall_mem_cons.mpr ⟨hreads.ranked, ih⟩

namespace Yard

theorem levels_of_ranked {pending : Pending} {outer : List Pending}
    (h : ∀ pending' ∈ pending :: outer, pending'.Ranked) :
    ∀ level ∈ (pending.operators ++ below outer).splitOn .openParen,
      level.Pairwise BindsTighter ∧ level.length ≤ 2 := by
  intro level hlevel
  rw [splitOn_stack] at hlevel
  obtain ⟨pending', hpending, rfl⟩ := List.mem_map.mp hlevel
  exact (h pending' hpending).pairwise_bindsTighter

theorem After.orderly {tokens : List Token} {yard : Yard} (h : After tokens yard) :
    Orderly tokens yard := by
  cases h with
  | @due _ pending outer hreads =>
      exact {
        stack := fun _ => isOperator_or_eq_openParen_of_mem_stack
        openGroups := by rw [Yard.due, count_openParen_stack, hreads.depthThrough_eq]
        levels := levels_of_ranked hreads.forall_ranked
        output := fun _ => isLiteral_or_isOperator_of_mem_settled (pending :: outer)
        surplus := (surplus_settled pending outer).trans (Int.add_zero _).symm }
  | @met before second pending outer operand hreads hfactor =>
      exact {
        stack := fun _ => isOperator_or_eq_openParen_of_mem_stack
        openGroups := by
          rw [Yard.met, count_openParen_stack, Bracket.depthThrough_append, hreads.depthThrough_eq,
            Option.bind_some, hfactor.balanced.depthThrough]
        levels := levels_of_ranked hreads.forall_ranked
        output := by
          intro token htoken
          rcases List.mem_append.mp htoken with hoperand | hsettled
          · exact isLiteral_or_isOperator_of_mem_toPostfix (List.mem_reverse.mp hoperand)
          · exact isLiteral_or_isOperator_of_mem_settled (pending :: outer) hsettled
        surplus := by
          have hsettled := surplus_settled pending outer
          have hoperand : Token.surplus operand.toPostfix.reverse = 1 := by
            rw [Token.surplus_reverse, Expr.surplus_toPostfix]
          calc Token.surplus (operand.toPostfix.reverse ++ settled (pending :: outer))
            _ = 1 + (pending.operators ++ below outer).countP Token.isOperator := by
                rw [Token.surplus_append, hoperand, hsettled]
            _ = (pending.operators ++ below outer).countP Token.isOperator + 1 := Int.add_comm _ _ }

/-- However many tokens a yard has taken in, its state is orderly. So nothing but a parenthesis on
the stack can make the end of the reordering fail. -/
theorem orderly_of_feedAll_take (tokens : List Token) (count : Nat) {yard : Yard}
    (h : feedAll {} (tokens.take count) = .ok yard) :
    Orderly (tokens.take count) yard ∧
      yard.finish =
        if yard.stack.any Token.isParenthesis then .error .unmatchedParenthesis
        else .ok (yard.output.reverse ++ yard.stack) := by
  have horderly := (after_of_feedAll h).orderly
  exact ⟨horderly, horderly.finish_eq⟩

theorem orderly_of_feedAll_take_of_group :
    let one : Token := .literal { toInt := 1 }
    let tokens : List Token := [one, .operator .subtract, .openParen, one, .operator .add, one,
      .operator .multiply, one, .closeParen]
    let inside : Yard := {
      stack := [.operator .multiply, .operator .add, .openParen, .operator .subtract]
      output := [one, one, one]
      expectOperand := true }
    let closed : Yard := {
      stack := [.operator .subtract]
      output := [.operator .add, .operator .multiply, one, one, one, one]
      expectOperand := false }
    (feedAll {} (tokens.take 7) = .ok inside ∧ Orderly (tokens.take 7) inside) ∧
    feedAll {} (tokens.take 9) = .ok closed ∧ Orderly (tokens.take 9) closed ∧
      closed.finish = .ok (closed.output.reverse ++ closed.stack) := by
  intro one tokens inside closed
  have hinside : feedAll {} (tokens.take 7) = .ok inside := by rfl
  have hclosed : feedAll {} (tokens.take 9) = .ok closed := by rfl
  obtain ⟨horderly, hfinish⟩ := orderly_of_feedAll_take tokens 9 hclosed
  exact ⟨⟨hinside, (orderly_of_feedAll_take tokens 7 hinside).1⟩, hclosed, horderly, hfinish⟩

end Yard

end InfixArithmetic
