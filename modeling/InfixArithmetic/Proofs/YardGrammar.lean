import InfixArithmetic.Proofs.PostfixBuilding
import InfixArithmetic.Proofs.YardState

namespace InfixArithmetic

open Grammar Descent

namespace Yard

def feedAll (yard : Yard) (tokens : List Token) : Except SyntaxError Yard :=
  (tokens.foldlM feed yard).outcome

@[simp] theorem feedAll_nil (yard : Yard) : yard.feedAll [] = .ok yard := rfl

theorem feedAll_cons (yard : Yard) (token : Token) (rest : List Token) :
    yard.feedAll (token :: rest) =
      (yard.feed token).outcome.bind fun yard' => yard'.feedAll rest := by
  rw [feedAll, List.foldlM_cons, Traced.outcome_bind]
  rfl

theorem feedAll_append (yard : Yard) (first second : List Token) :
    yard.feedAll (first ++ second) =
      (yard.feedAll first).bind fun yard' => yard'.feedAll second := by
  rw [feedAll, List.foldlM_append, Traced.outcome_bind]
  rfl

theorem feedAll_cons_of_ok {yard yard' : Yard} {token : Token}
    (h : (yard.feed token).outcome = .ok yard') (rest : List Token) :
    yard.feedAll (token :: rest) = yard'.feedAll rest := by
  rw [feedAll_cons, h]
  rfl

theorem feedAll_append_of_ok {yard yard' : Yard} {first : List Token}
    (h : yard.feedAll first = .ok yard') (second : List Token) :
    yard.feedAll (first ++ second) = yard'.feedAll second := by
  rw [feedAll_append, h]
  rfl

end Yard

theorem outcome_postfixOrder (tokens : List Token) :
    (postfixOrder tokens).outcome =
      ((Yard.feedAll {} tokens).mapError .illFormed).bind fun yard =>
        if yard.expectOperand then .error (incompleteError tokens)
        else yard.finish.mapError .illFormed := by
  rw [postfixOrder, Traced.outcome_bind, Traced.outcome_mapError]
  congr 1
  funext yard
  cases yard.expectOperand <;> rfl

theorem outcome_postfixOrder_of_error {tokens : List Token} {error : SyntaxError}
    (h : Yard.feedAll {} tokens = .error error) :
    (postfixOrder tokens).outcome = .error (.illFormed error) := by
  rw [outcome_postfixOrder, h]
  rfl

theorem outcome_postfixOrder_of_met {tokens : List Token} {pending : Pending} {operand : Expr}
    (h : Yard.feedAll {} tokens = .ok (Yard.met pending [] operand)) :
    (postfixOrder tokens).outcome = .ok (pending.finish operand).toPostfix := by
  have hend : (Yard.met pending [] operand).finish.mapError ParseError.illFormed =
      .ok (pending.finish operand).toPostfix := by
    rw [Yard.finish_met_outermost]
    rfl
  rw [outcome_postfixOrder, h]
  exact hend

/-- The tokens that have been read for the waiting operations of all open levels. -/
inductive NestedReads : List Token → Pending → List Pending → Prop where
  | outermost {tokens : List Token} {pending : Pending} :
      Reads tokens pending → NestedReads tokens pending []
  | group {before tokens : List Token} {pending pending' : Pending} {outer : List Pending} :
      NestedReads before pending' outer → Reads tokens pending →
      NestedReads (before ++ .openParen :: tokens) pending (pending' :: outer)

namespace NestedReads

variable {before second : List Token} {pending pending' : Pending} {outer : List Pending}
  {operand : Expr}

theorem ranked (h : NestedReads before pending outer) : pending.Ranked := by
  cases h with
  | outermost hreads => exact hreads.ranked
  | group _ hreads => exact hreads.ranked

theorem open_group (h : NestedReads before pending outer) :
    NestedReads (before ++ [.openParen]) {} (pending :: outer) :=
  .group h .nothing

theorem next (h : NestedReads before pending outer) (k : Factor second operand)
    (op : Operator) :
    NestedReads (before ++ second ++ [.operator op]) (pending.next operand op) outer := by
  cases h with
  | outermost hreads => exact .outermost (hreads.next k op)
  | group hbefore hreads =>
      have hnext := group hbefore (hreads.next k op)
      simpa using hnext

theorem close_group (h : NestedReads before pending (pending' :: outer))
    (k : Factor second operand) :
    ∃ first factor, before ++ second ++ [.closeParen] = first ++ factor ∧
      NestedReads first pending' outer ∧ Factor factor (pending.finish operand) := by
  cases h with
  | group hbefore hreads =>
      refine ⟨_, _, ?_, hbefore, .group (hreads.expression k)⟩
      simp

theorem expression (h : NestedReads before pending []) (k : Factor second operand) :
    Expression (before ++ second) (pending.finish operand) := by
  cases h with
  | outermost hreads => exact hreads.expression k

end NestedReads

namespace Yard

/-- The states that a yard can have after the given tokens. -/
inductive After : List Token → Yard → Prop where
  | due {tokens : List Token} {pending : Pending} {outer : List Pending} :
      NestedReads tokens pending outer → After tokens (due pending outer)
  | met {before second : List Token} {pending : Pending} {outer : List Pending}
      {operand : Expr} :
      NestedReads before pending outer → Factor second operand →
      After (before ++ second) (met pending outer operand)

theorem After.feed {tokens : List Token} {yard yard' : Yard} {token : Token}
    (h : After tokens yard) (hfeed : (yard.feed token).outcome = .ok yard') :
    After (tokens ++ [token]) yard' := by
  cases h with
  | @due _ pending outer hreads =>
      cases token with
      | literal value =>
          rw [feed_due_literal] at hfeed
          cases hfeed
          exact .met hreads (.literal value)
      | openParen =>
          rw [feed_due_openParen] at hfeed
          cases hfeed
          exact .due hreads.open_group
      | closeParen =>
          rw [feed_due_closeParen] at hfeed
          cases hfeed
      | _ => cases hfeed
  | @met before second pending outer operand hreads hfactor =>
      cases token with
      | operator op =>
          rw [feed_met_operator hreads.ranked] at hfeed
          cases hfeed
          exact .due (hreads.next hfactor op)
      | closeParen =>
          cases outer with
          | nil =>
              rw [feed_met_closeParen_outermost] at hfeed
              cases hfeed
          | cons pending' outer =>
              rw [feed_met_closeParen] at hfeed
              cases hfeed
              obtain ⟨first, factor, hsplit, hfirst, hgroup⟩ := hreads.close_group hfactor
              rw [hsplit]
              exact .met hfirst hgroup
      | _ => cases hfeed

theorem After.feedAll {before tokens : List Token} {yard yard' : Yard}
    (h : After before yard) (hfeed : yard.feedAll tokens = .ok yard') :
    After (before ++ tokens) yard' := by
  induction tokens generalizing before yard with
  | nil =>
      cases hfeed
      rwa [List.append_nil]
  | cons token rest ih =>
      rw [feedAll_cons, Traced.bind_eq_ok_iff] at hfeed
      obtain ⟨middle, htoken, hrest⟩ := hfeed
      have hafter := ih (h.feed htoken) hrest
      rwa [List.append_assoc] at hafter

theorem after_of_feedAll {tokens : List Token} {yard : Yard} (h : feedAll {} tokens = .ok yard) :
    After tokens yard := by
  have hstart : After [] {} := .due (.outermost .nothing)
  exact hstart.feedAll h

-- By recursion on the derivation. An operand of the expression may still be on its own when its
-- last token has been taken in, so the state is given up to what the waiting operations make of it.
mutual

theorem feedAll_expression {tokens : List Token} {e : Expr} (outer : List Pending) :
    Expression tokens e → ∃ pending operand, pending.Ranked ∧ pending.finish operand = e ∧
      (due {} outer).feedAll tokens = .ok (met pending outer operand)
  | .term h => by
      obtain ⟨product, operand, hranked, hjoin, hfeed⟩ :=
        feedAll_term outer Pending.ranked_empty h
      exact ⟨{ product }, operand, hranked, hjoin, hfeed⟩
  | @Expression.sum first second left right op hsign h k => by
      have hop := Operator.isAdditive_iff.mpr hsign
      obtain ⟨pending, operand, hranked, hfinish, hfirst⟩ := feedAll_expression outer h
      have hsum : Pending.Ranked { sum := some ⟨left, op⟩ } := by
        constructor <;> simp [hop]
      obtain ⟨product, operand', hranked', hjoin, hsecond⟩ := feedAll_term outer hsum k
      refine ⟨_, operand', hranked', ?_, ?_⟩
      · rw [Pending.finish, hjoin]
        rfl
      · rw [feedAll_append_of_ok hfirst,
          feedAll_cons_of_ok (feed_met_operator hranked outer operand op),
          Pending.next_of_additive pending operand hop, hfinish, hsecond]

theorem feedAll_term {tokens : List Token} {e : Expr} {sum : Option OpenOperation}
    (outer : List Pending) (hsum : Pending.Ranked { sum }) :
    Term tokens e → ∃ product operand, Pending.Ranked { sum, product } ∧
      join product operand = e ∧
      (due { sum } outer).feedAll tokens = .ok (met { sum, product } outer operand)
  | .factor h => ⟨none, e, hsum, rfl, feedAll_factor { sum } outer h⟩
  | @Term.product first second left right op hsign h k => by
      have hop := Operator.not_isAdditive_iff.mpr hsign
      obtain ⟨product, operand, hranked, hjoin, hfirst⟩ := feedAll_term outer hsum h
      refine ⟨some ⟨left, op⟩, right, ⟨hsum.1, by simp [hop]⟩, rfl, ?_⟩
      rw [feedAll_append_of_ok hfirst,
        feedAll_cons_of_ok (feed_met_operator hranked outer operand op),
        Pending.next_of_not_additive _ operand hop, hjoin, feedAll_factor _ outer k]

theorem feedAll_factor {tokens : List Token} {e : Expr} (pending : Pending)
    (outer : List Pending) :
    Factor tokens e → (due pending outer).feedAll tokens = .ok (met pending outer e)
  | .literal value => feedAll_cons_of_ok (feed_due_literal pending outer value) []
  | @Factor.group inside e h => by
      obtain ⟨pending', operand, -, hfinish, hinside⟩ := feedAll_expression (pending :: outer) h
      rw [List.cons_append, feedAll_cons_of_ok (feed_due_openParen pending outer),
        feedAll_append_of_ok hinside,
        feedAll_cons_of_ok (feed_met_closeParen pending' pending outer operand), hfinish,
        feedAll_nil]

end

end Yard

theorem outcome_postfixOrder_eq_ok_iff {tokens ordered : List Token} :
    (postfixOrder tokens).outcome = .ok ordered ↔
      ∃ e, Expression tokens e ∧ ordered = e.toPostfix := by
  rw [outcome_postfixOrder, Traced.bind_eq_ok_iff]
  simp only [Traced.mapError_eq_ok_iff]
  constructor
  · rintro ⟨yard, hfeed, hfinish⟩
    have hafter := Yard.after_of_feedAll hfeed
    cases hafter with
    | due _ => cases hfinish
    | @met before second pending outer operand hreads hfactor =>
        have hend : (Yard.met pending outer operand).finish = .ok ordered :=
          Traced.mapError_eq_ok_iff.mp hfinish
        cases outer with
        | nil =>
            rw [Yard.finish_met_outermost] at hend
            cases hend
            exact ⟨_, hreads.expression hfactor, rfl⟩
        | cons pending' outer =>
            rw [Yard.finish_met_group] at hend
            cases hend
  · rintro ⟨e, h, rfl⟩
    obtain ⟨pending, operand, -, rfl, hfeed⟩ := Yard.feedAll_expression [] h
    refine ⟨_, hfeed, ?_⟩
    have hend := Yard.finish_met_outermost pending operand
    exact Traced.mapError_eq_ok_iff.mpr hend

/-- The reordering is exact without any check of the edges: it succeeds on the tokens of an
expression only, and an expression can be built from all that it gives. -/
theorem postfixOrder_exact (tokens ordered : List Token) :
    ((postfixOrder tokens).outcome = .ok ordered ↔
      ∃ e, Expression tokens e ∧ ordered = e.toPostfix) ∧
    ((postfixOrder tokens).outcome = .ok ordered →
      ∃ e, Expression tokens e ∧ Expr.ofPostfix ordered = .ok e) := by
  refine ⟨outcome_postfixOrder_eq_ok_iff, ?_⟩
  intro h
  obtain ⟨e, hexpression, rfl⟩ := outcome_postfixOrder_eq_ok_iff.mp h
  exact ⟨e, hexpression, Expr.ofPostfix_toPostfix e⟩

theorem postfixOrder_exact_product_of_group :
    let tokens : List Token := [.openParen, .literal 0, .operator .subtract,
      .literal { toInt := 7 }, .closeParen, .operator .multiply, .literal { toInt := -2 }]
    let ordered : List Token := [.literal 0, .literal { toInt := 7 }, .operator .subtract,
      .literal { toInt := -2 }, .operator .multiply]
    (postfixOrder tokens).outcome = .ok ordered ∧
      ∃ e, Expression tokens e ∧ Expr.ofPostfix ordered = .ok e := by
  intro tokens ordered
  have horder : (postfixOrder tokens).outcome = .ok ordered := by rfl
  exact ⟨horder, (postfixOrder_exact tokens ordered).2 horder⟩

end InfixArithmetic
