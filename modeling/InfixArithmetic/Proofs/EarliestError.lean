import InfixArithmetic.Proofs.JustifiedErrors

/-!
Where the reordering into postfix order finds fault with malformed tokens. Every state of a yard can
still be completed, by an operand if one is due and by the ends of all open groups. So the token
that a yard refuses is the first one after which nothing helps, and what is said of it depends only
on that token and the one before it. Main statement: the error of the reordering, for every sequence
of tokens that it does not accept.
-/

namespace InfixArithmetic

open Grammar Descent Yard

/-- With some continuation, possibly an empty one, the tokens can be reordered. -/
def Viable (tokens : List Token) : Prop :=
  ∃ continuation ordered, (postfixOrder (tokens ++ continuation)).outcome = .ok ordered

/-- The shortest prefix that is not viable consists of the tokens `before` and this token. -/
structure FirstDeadEnd (tokens before : List Token) (token : Token) : Prop where
  isPrefix : before ++ [token] <+: tokens
  viable : ∀ shorter, shorter <+: before → Viable shorter
  not_viable : ¬Viable (before ++ [token])

/-- What is said of the first token after which no continuation helps. The token before it, if there
is one, is `last?`. -/
def refusal (last? : Option Token) : Token → SyntaxError
  | .unrecognized text => .invalidFactor text
  | .closeParen =>
      match last? with
      | some .openParen => .emptyParentheses
      | some (.literal _) | some .closeParen => .unmatchedParenthesis
      | _ => .unexpectedToken .closeParen
  | token => .unexpectedToken token

theorem Viable.of_append {first second : List Token} (h : Viable (first ++ second)) :
    Viable first := by
  rcases h with ⟨continuation, ordered, h⟩
  rw [List.append_assoc] at h
  exact ⟨second ++ continuation, ordered, h⟩

theorem Viable.of_prefix {first tokens : List Token} (h : Viable tokens) (k : first <+: tokens) :
    Viable first := by
  rcases k with ⟨second, rfl⟩
  exact h.of_append

namespace Yard

theorem exists_feedAll_closeParens (pending : Pending) (outer : List Pending) (operand : Expr) :
    ∃ pending' operand',
      (met pending outer operand).feedAll (List.replicate outer.length .closeParen) =
        .ok (met pending' [] operand') := by
  induction outer generalizing pending operand with
  | nil => exact ⟨pending, operand, rfl⟩
  | cons pending' outer ih =>
      rw [List.length_cons, List.replicate_succ,
        feedAll_cons_of_ok (feed_met_closeParen pending pending' outer operand)]
      exact ih pending' (pending.finish operand)

theorem viable_of_feedAll_eq_met {tokens : List Token} {pending : Pending} {outer : List Pending}
    {operand : Expr} (h : feedAll {} tokens = .ok (met pending outer operand)) :
    Viable tokens := by
  obtain ⟨pending', operand', hclose⟩ := exists_feedAll_closeParens pending outer operand
  have hfed : feedAll {} (tokens ++ List.replicate outer.length .closeParen) =
      .ok (met pending' [] operand') := by
    rw [feedAll_append_of_ok h, hclose]
  exact ⟨_, _, outcome_postfixOrder_of_met hfed⟩

theorem viable_iff_feedAll {tokens : List Token} :
    Viable tokens ↔ ∃ yard, feedAll {} tokens = .ok yard := by
  constructor
  · rintro ⟨continuation, ordered, h⟩
    rw [outcome_postfixOrder, Traced.bind_eq_ok_iff] at h
    obtain ⟨_, hfed, -⟩ := h
    rw [Traced.mapError_eq_ok_iff, feedAll_append, Traced.bind_eq_ok_iff] at hfed
    obtain ⟨yard, hfed, -⟩ := hfed
    exact ⟨yard, hfed⟩
  · rintro ⟨yard, h⟩
    cases after_of_feedAll h with
    -- Any literal will do for the operand that is due.
    | @due _ pending outer _ =>
        have hliteral : feedAll {} (tokens ++ [.literal 0]) =
            .ok (met pending outer (.literal 0)) := by
          rw [feedAll_append_of_ok h, feedAll_cons_of_ok (feed_due_literal pending outer 0)]
          rfl
        exact (viable_of_feedAll_eq_met hliteral).of_append
    | met _ _ => exact viable_of_feedAll_eq_met h

-- The token read last tells a state apart: where an operand is due it waits on top of the stack,
-- and where none is due it ends the operand before.
theorem After.error_eq_refusal {before : List Token} {yard : Yard} {token : Token}
    {error : SyntaxError} (h : After before yard)
    (hrefused : (yard.feed token).outcome = .error error) :
    error = refusal before.getLast? token := by
  cases h with
  | @due _ pending outer hreads =>
      have hbefore := hreads.endsOperand_of_getLast?
      cases token with
      | literal value => cases hrefused
      | openParen => cases hrefused
      | closeParen =>
          rw [feed_due_closeParen, ← hreads.getLast?_eq] at hrefused
          rcases hlast : before.getLast? with _ | last
          · rw [hlast] at hrefused
            cases hrefused
            rfl
          · have hend := hbefore last hlast
            rw [hlast] at hrefused
            cases last with
            | openParen => simpa [refusal] using hrefused.symm
            | operator op => simpa [refusal] using hrefused.symm
            | _ => cases hend
      | _ =>
          cases hrefused
          rfl
  | @met before second pending outer operand hreads hfactor =>
      obtain ⟨last, hlast, hoperand⟩ := hfactor.exists_getLast?
      rw [List.getLast?_append, hlast, Option.some_or]
      cases token with
      | operator op =>
          rw [feed_met_operator hreads.ranked] at hrefused
          cases hrefused
      | closeParen =>
          cases outer with
          | nil =>
              rw [feed_met_closeParen_outermost] at hrefused
              cases hrefused
              rcases hoperand with rfl | ⟨value, rfl⟩ <;> rfl
          | cons pending' outer =>
              rw [feed_met_closeParen] at hrefused
              cases hrefused
      | _ =>
          cases hrefused
          rfl

end Yard

theorem FirstDeadEnd.outcome_eq {tokens before : List Token} {token : Token}
    (h : FirstDeadEnd tokens before token) :
    (postfixOrder tokens).outcome = .error (.illFormed (refusal before.getLast? token)) := by
  rcases h with ⟨⟨rest, rfl⟩, hviable, hfault⟩
  obtain ⟨yard, hbefore⟩ := viable_iff_feedAll.mp (hviable before (List.prefix_refl before))
  apply outcome_postfixOrder_of_error
  rw [List.append_assoc, feedAll_append_of_ok hbefore, List.singleton_append]
  cases hfed : (yard.feed token).outcome with
  | ok yard' =>
      exfalso
      apply hfault
      rw [viable_iff_feedAll]
      refine ⟨yard', ?_⟩
      rw [feedAll_append_of_ok hbefore, feedAll_cons_of_ok hfed, feedAll_nil]
  | error error =>
      rw [feedAll_cons, hfed, (after_of_feedAll hbefore).error_eq_refusal hfed]
      rfl

theorem Viable.outcome_eq {tokens : List Token} (h : Viable tokens)
    (hrefused : ∀ ordered, (postfixOrder tokens).outcome ≠ .ok ordered) :
    (postfixOrder tokens).outcome = .error
      (match tokens.getLast? with
      | none => .emptyInput
      | some (.operator op) => .illFormed (.danglingOperator op)
      | some _ => .illFormed .unmatchedParenthesis) := by
  obtain ⟨yard, hfed⟩ := viable_iff_feedAll.mp h
  cases after_of_feedAll hfed with
  | due _ =>
      rw [outcome_postfixOrder, hfed]
      rfl
  | @met before second pending outer operand _ hfactor =>
      cases outer with
      | nil => exact absurd (outcome_postfixOrder_of_met hfed) (hrefused _)
      | cons pending' outer =>
          obtain ⟨last, hlast, hoperand⟩ := hfactor.exists_getLast?
          have hend : (met pending (pending' :: outer) operand).finish.mapError
              ParseError.illFormed = .error (.illFormed .unmatchedParenthesis) := by
            rw [finish_met_group]
            rfl
          rw [outcome_postfixOrder, hfed, List.getLast?_append, hlast, Option.some_or]
          rcases hoperand with rfl | ⟨value, rfl⟩
          · exact hend
          · exact hend

/-- The reordering fails at the first token after which no continuation helps, whatever follows it,
with an error that this token and the one before it determine. If there is no such token, the error
is about what is still lacking at the end. -/
theorem postfixOrder_fails_earliest (tokens : List Token) :
    (∀ before token, FirstDeadEnd tokens before token →
      (postfixOrder tokens).outcome = .error (.illFormed (refusal before.getLast? token))) ∧
    ((∀ part, part <+: tokens → Viable part) →
      (∀ ordered, (postfixOrder tokens).outcome ≠ .ok ordered) →
      (postfixOrder tokens).outcome = .error
        (match tokens.getLast? with
        | none => .emptyInput
        | some (.operator op) => .illFormed (.danglingOperator op)
        | some _ => .illFormed .unmatchedParenthesis)) := by
  refine ⟨fun before token h => h.outcome_eq, ?_⟩
  intro hviable hrefused
  exact (hviable tokens (List.prefix_refl tokens)).outcome_eq hrefused

theorem postfixOrder_fails_earliest_of_groups :
    let one : Token := .literal { toInt := 1 }
    let before : List Token := [.openParen, one, .closeParen]
    let closedTwice : List Token := before ++ [.closeParen, .unrecognized "x", .closeParen]
    let leftOpen : List Token := [.openParen, one, .operator .add]
    (FirstDeadEnd closedTwice before .closeParen ∧
      (postfixOrder closedTwice).outcome = .error (.illFormed .unmatchedParenthesis)) ∧
    (∀ part, part <+: leftOpen → Viable part) ∧
      (∀ ordered, (postfixOrder leftOpen).outcome ≠ .ok ordered) ∧
      (postfixOrder leftOpen).outcome = .error (.illFormed (.danglingOperator .add)) := by
  intro one before closedTwice leftOpen
  have hfault : FirstDeadEnd closedTwice before .closeParen := by
    refine ⟨⟨[.unrecognized "x", .closeParen], rfl⟩, ?_, ?_⟩
    · intro shorter hshorter
      have hbefore : Viable before := viable_iff_feedAll.mpr ⟨_, rfl⟩
      exact hbefore.of_prefix hshorter
    · rw [viable_iff_feedAll]
      rintro ⟨yard, hfed⟩
      cases hfed
  have hviable : Viable leftOpen := viable_iff_feedAll.mpr ⟨_, rfl⟩
  have hrefused : ∀ ordered, (postfixOrder leftOpen).outcome ≠ .ok ordered := by
    intro ordered hok
    cases hok
  refine ⟨⟨hfault, (postfixOrder_fails_earliest closedTwice).1 before .closeParen hfault⟩,
    fun part hpart => hviable.of_prefix hpart, hrefused, ?_⟩
  exact (postfixOrder_fails_earliest leftOpen).2 (fun part hpart => hviable.of_prefix hpart)
    hrefused

end InfixArithmetic
