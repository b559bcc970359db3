import InfixArithmetic.Proofs.StrategyErrors
import Mathlib.Control.Monad.Basic

namespace InfixArithmetic

open Grammar Descent Yard

/-- The second token may not directly follow the first one: it starts an operand right after
another, or an operand is lacking between the two. -/
def Token.clashes : (before token : Token) → Bool
  | literal _, literal _ | literal _, openParen => true
  | closeParen, literal _ | closeParen, openParen => true
  | operator _, operator _ | operator _, closeParen => true
  | openParen, operator _ | openParen, closeParen => true
  | _, _ => false

/-- The reason that an error of a strategy has in the tokens. Recursive descent reports operators at
the inner edges of a group like those at the edges of the input. -/
def SyntaxError.Justified (strategy : Strategy) (tokens : List Token) : SyntaxError → Prop
  | danglingOperator op =>
      tokens.head? = some (.operator op) ∨ tokens.getLast? = some (.operator op) ∨
        strategy = .recursiveDescent ∧
          ([.openParen, .operator op] <:+: tokens ∨ [.operator op, .closeParen] <:+: tokens)
  | misplacedParenthesis token =>
      token = .closeParen ∧ tokens.head? = some token ∨
        token = .openParen ∧ tokens.getLast? = some token
  | invalidFactor text => .unrecognized text ∈ tokens
  | unmatchedParenthesis => ¬Bracket.Balanced tokens
  | unexpectedToken token => ∃ before, before.clashes token ∧ [before, token] <:+: tokens
  | emptyParentheses => [.openParen, .closeParen] <:+: tokens

/-- The errors of reading postfix tokens never arise from infix ones. -/
def ParseError.Justified (strategy : Strategy) (tokens : List Token) : ParseError → Prop
  | emptyInput => tokens = []
  | illFormed error => error.Justified strategy tokens
  | stackUnderflow _ _ | malformedResult _ => False

theorem justified_of_checkEdges_eq_error {tokens : List Token} {error : SyntaxError}
    (strategy : Strategy) (hnonempty : tokens ≠ []) (h : checkEdges tokens = .error error) :
    error.Justified strategy tokens := by
  unfold checkEdges at h
  split at h
  next hhead =>
    cases h
    exact .inl hhead
  next hlast _ =>
    cases h
    exact .inr (.inl hlast)
  next hhead _ =>
    cases h
    exact .inl ⟨rfl, hhead⟩
  next hlast _ _ =>
    cases h
    exact .inr ⟨rfl, hlast⟩
  next => cases h
  next hhead _ _ => exact absurd (List.head?_eq_none_iff.mp hhead) hnonempty

/-- The inside of a group has no fault of its parentheses, and its edges are next to those of the
group. -/
theorem SyntaxError.Justified.of_inside {error : SyntaxError} {inside level : List Token}
    (h : error.Justified .recursiveDescent inside) (hinside : Bracket.Balanced inside)
    (hgroup : .openParen :: inside ++ [.closeParen] <:+: level) :
    error.Justified .recursiveDescent level := by
  have hpart : inside <:+: level :=
    List.IsInfix.trans ⟨[.openParen], [.closeParen], rfl⟩ hgroup
  cases error with
  | danglingOperator op =>
      refine .inr (.inr ⟨rfl, ?_⟩)
      obtain hhead | hlast | ⟨-, hopen | hclose⟩ := h
      · obtain ⟨rest, rfl⟩ := List.head?_eq_some_iff.mp hhead
        exact .inl (List.IsInfix.trans ⟨[], rest ++ [.closeParen], rfl⟩ hgroup)
      · obtain ⟨init, rfl⟩ := List.getLast?_eq_some_iff.mp hlast
        exact .inr (List.IsInfix.trans ⟨.openParen :: init, [], by simp⟩ hgroup)
      · exact .inl (hopen.trans hpart)
      · exact .inr (hclose.trans hpart)
  | misplacedParenthesis token =>
      obtain ⟨rfl, hhead⟩ | ⟨rfl, hlast⟩ := h
      · obtain ⟨rest, rfl⟩ := List.head?_eq_some_iff.mp hhead
        exact absurd hinside (Bracket.not_balanced_closeParen_cons rest)
      · obtain ⟨init, rfl⟩ := List.getLast?_eq_some_iff.mp hlast
        exact absurd hinside (Bracket.not_balanced_concat_openParen init)
  | invalidFactor text => exact hpart.subset h
  | unmatchedParenthesis => exact absurd hinside h
  | unexpectedToken token =>
      obtain ⟨before, hclash, hpair⟩ := h
      exact ⟨before, hclash, hpair.trans hpart⟩
  | emptyParentheses => exact List.IsInfix.trans h hpart

theorem pair_infix {tokens before rest : List Token} {last token : Token}
    (h : tokens = before ++ token :: rest) (hlast : before.getLast? = some last) :
    [last, token] <:+: tokens := by
  obtain ⟨init, rfl⟩ := List.getLast?_eq_some_iff.mp hlast
  exact ⟨init, rest, by simp [h]⟩

theorem justified_unexpected {tokens before rest : List Token} {token : Token}
    (strategy : Strategy) (h : tokens = before ++ token :: rest)
    (hclash : (∀ text, token ≠ .unrecognized text) →
      ∃ last, before.getLast? = some last ∧ last.clashes token) :
    (SyntaxError.unexpected token).Justified strategy tokens := by
  cases token with
  | unrecognized text =>
      have hmem : Token.unrecognized text ∈ tokens := by simp [h]
      exact hmem
  | _ =>
      obtain ⟨last, hlast, hclash⟩ := hclash (by simp)
      exact ⟨last, hclash, pair_infix h hlast⟩

theorem justified_of_operand_due {tokens before rest : List Token} {token : Token}
    (strategy : Strategy) (h : tokens = before ++ token :: rest) (hedges : HasOperandEdges tokens)
    (hbefore : ∀ last ∈ before.getLast?, last.endsOperand = false)
    (hliteral : ∀ value, token ≠ .literal value) (hopen : token ≠ .openParen) :
    (SyntaxError.unexpected token).Justified strategy tokens := by
  apply justified_unexpected strategy h
  intro hrecognized
  have hstart : token.startsOperand = false := by
    cases token with
    | literal value => exact absurd rfl (hliteral value)
    | openParen => exact absurd rfl hopen
    | unrecognized text => exact absurd rfl (hrecognized text)
    | _ => rfl
  cases hlast : before.getLast? with
  | none =>
      rw [List.getLast?_eq_none_iff.mp hlast] at h
      have hhead := hedges.1
      simp [h, hstart] at hhead
  | some last =>
      refine ⟨last, rfl, ?_⟩
      have hend := hbefore last hlast
      cases last <;> cases token <;>
        simp_all [Token.clashes, Token.endsOperand, Token.startsOperand]

theorem justified_of_operand_met {tokens before second rest : List Token} {token : Token}
    {operand : Expr} (strategy : Strategy) (h : tokens = before ++ second ++ token :: rest)
    (hfactor : Factor second operand) (hoperator : ∀ op, token ≠ .operator op)
    (hclose : token ≠ .closeParen) : (SyntaxError.unexpected token).Justified strategy tokens := by
  apply justified_unexpected strategy h
  intro hrecognized
  cases hfactor with
  | literal value =>
      refine ⟨.literal value, List.getLast?_concat, ?_⟩
      cases token <;> simp_all [Token.clashes]
  | @group inside _ _ =>
      refine ⟨.closeParen, by rw [← List.append_assoc, List.getLast?_concat], ?_⟩
      cases token <;> simp_all [Token.clashes]

theorem HasOperandEdges.not_due {tokens : List Token} (h : HasOperandEdges tokens) :
    ¬∀ last ∈ tokens.getLast?, last.endsOperand = false := by
  intro hdue
  obtain ⟨-, hend⟩ := h
  cases hlast : tokens.getLast? with
  | none => simp [hlast] at hend
  | some last => simp [hlast, hdue last hlast] at hend

theorem Descent.Reads.getLast?_eq {before : List Token} {pending : Pending}
    (h : Reads before pending) : before.getLast? = pending.operators.head? := by
  cases h with
  | nothing => rfl
  | sum _ _ => exact List.getLast?_concat
  | product _ _ _ =>
      rw [← List.append_assoc, List.getLast?_concat]
      rfl

theorem Descent.Reads.balanced {before : List Token} {pending : Pending}
    (h : Reads before pending) : Bracket.Balanced before := by
  induction h with
  | nothing => exact Bracket.balanced_iff_depthThrough.mpr rfl
  | sum _ hleft => exact hleft.balanced.append (Bracket.balanced_singleton rfl)
  | product _ _ hleft ih =>
      exact ih.append (hleft.balanced.append (Bracket.balanced_singleton rfl))

theorem endsOperand_of_mem_stack {pending : Pending} {outer : List Pending} {token : Token}
    (h : token ∈ (due pending outer).stack) : token.endsOperand = false := by
  have hoperators : ∀ pending : Pending, token ∈ pending.operators → token.endsOperand = false := by
    intro pending hmem
    obtain ⟨operation, -, rfl⟩ := List.mem_map.mp hmem
    rfl
  rw [due, List.mem_append, below, List.mem_flatMap] at h
  obtain hmem | ⟨pending', -, hmem⟩ := h
  · exact hoperators pending hmem
  · obtain rfl | hmem := List.mem_cons.mp hmem
    · rfl
    · exact hoperators pending' hmem

namespace NestedReads

variable {before : List Token} {pending : Pending} {outer : List Pending}

theorem getLast?_eq (h : NestedReads before pending outer) :
    before.getLast? = (due pending outer).stack.head? := by
  cases h with
  | outermost hreads =>
      rw [hreads.getLast?_eq, due, Yard.below, List.flatMap_nil, List.append_nil]
  | group _ hreads =>
      rw [List.getLast?_append, List.getLast?_cons, hreads.getLast?_eq, due, List.head?_append]
      cases pending.operators.head? <;> rfl

theorem endsOperand_of_getLast? (h : NestedReads before pending outer) :
    ∀ last ∈ before.getLast?, last.endsOperand = false := by
  intro last hlast
  rw [h.getLast?_eq] at hlast
  exact endsOperand_of_mem_stack (List.mem_of_mem_head? hlast)

theorem depthThrough_eq (h : NestedReads before pending outer) :
    Bracket.depthThrough 0 before = some outer.length := by
  induction h with
  | outermost hreads => exact Bracket.balanced_iff_depthThrough.mp hreads.balanced
  | group _ hreads ih =>
      rw [Bracket.depthThrough_append, ih, Option.bind_some, Bracket.depthThrough_cons]
      exact hreads.balanced.depthThrough _

end NestedReads

theorem justified_of_operandAt_eq_error {level : List Token} {position : Nat} {pending : Pending}
    {error : SyntaxError} (hedges : HasOperandEdges level)
    (hreads : Reads (level.take position) pending) (h : operandAt level position = .error error) :
    error.Justified .recursiveDescent level := by
  have hbefore := (NestedReads.outermost hreads).endsOperand_of_getLast?
  unfold operandAt at h
  split at h
  next => cases h
  next hopen =>
    split at h
    next => cases h
    next hclose =>
      cases h
      intro hbalanced
      obtain ⟨hlt, -⟩ := List.getElem?_eq_some_iff.mp hopen
      have hmatch := Bracket.allClosed_iff.mp hbalanced.allClosed position hlt hopen
      rw [hclose] at hmatch
      cases hmatch
  next token hliteral hopen htoken =>
    cases h
    have hsplit : level = level.take position ++ token :: level.drop (position + 1) := by
      rw [← drop_eq_cons_of_getElem? htoken, List.take_append_drop]
    exact justified_of_operand_due .recursiveDescent hsplit hedges hbefore hliteral hopen
  next hend =>
    rw [List.take_of_length_le (List.getElem?_eq_none_iff.mp hend)] at hbefore
    exact absurd hbefore hedges.not_due

theorem justified_of_group_eq_error {level inside rest : List Token} {position : Nat}
    {error : SyntaxError}
    (hdrop : level.drop position = .openParen :: (inside ++ .closeParen :: rest))
    (hinside : Bracket.Balanced inside) (herror : (expression inside).outcome = .error error)
    (hjustified : inside ≠ [] → error.Justified .recursiveDescent inside) :
    error.Justified .recursiveDescent level := by
  have hgroup : .openParen :: inside ++ [.closeParen] <:+: level := by
    refine ⟨level.take position, rest, ?_⟩
    rw [← take_of_drop_eq_group hdrop, ← drop_of_drop_eq_group hdrop, List.take_append_drop]
  by_cases hnonempty : inside = []
  · rw [hnonempty, outcome_expression_nil] at herror
    cases herror
    rw [hnonempty] at hgroup
    exact hgroup
  · exact (hjustified hnonempty).of_inside hinside hgroup

-- An error from inside a group is lifted to the level around it; any other is told by what has been
-- read for the pending operations.
theorem justified_of_outcome_eq_error :
    (∀ level, ∀ error, level ≠ [] → (expression level).outcome = .error error →
      error.Justified .recursiveDescent level) ∧
    (∀ level pending position, ∀ error, HasOperandEdges level →
      Reads (level.take position) pending →
      (factor level pending position).outcome = .error error →
      error.Justified .recursiveDescent level) ∧
    (∀ level pending operand position, ∀ error before second, HasOperandEdges level →
      level.take position = before ++ second → Reads before pending → Factor second operand →
      (afterFactor level pending operand position).outcome = .error error →
      error.Justified .recursiveDescent level) := by
  apply reader_induct
  case level =>
    intro level ih error hnonempty h
    rw [outcome_expression] at h
    cases hedges : checkEdges level with
    | error error' =>
        rw [hedges] at h
        cases h
        exact justified_of_checkEdges_eq_error .recursiveDescent hnonempty hedges
    | ok _ =>
        rw [hedges] at h
        exact ih error (checkEdges_eq_ok_iff.mp hedges) .nothing h
  case noOperand =>
    intro level pending position error' hoperand error hedges hreads h
    rw [factor_of_error pending hoperand] at h
    cases h
    exact justified_of_operandAt_eq_error hedges hreads hoperand
  case literal =>
    intro level pending position value hoperand ih error hedges hreads h
    rw [factor_of_literal pending hoperand] at h
    have htoken := operandAt_eq_literal_iff.mp hoperand
    exact ih error _ _ hedges (take_succ_of_getElem? htoken) hreads (.literal value) h
  case group =>
    intro level pending position close hoperand ihInside ihAfter error hedges hreads h
    obtain ⟨inside, rest, hdrop, hinside, rfl⟩ := operandAt_eq_group_iff.mp hoperand
    rw [extract_of_drop_eq_group hdrop] at ihInside
    rw [outcome_factor_of_group pending hoperand, extract_of_drop_eq_group hdrop,
      Traced.bind_eq_error_iff] at h
    obtain herror | ⟨operand, hread, hafter⟩ := h
    · exact justified_of_group_eq_error hdrop hinside herror fun hnonempty =>
        ihInside error hnonempty herror
    · have hfactor : Factor (.openParen :: inside ++ [.closeParen]) operand :=
        .group (outcome_expression_eq_ok_iff.mp hread)
      exact ihAfter operand error _ _ hedges (take_of_drop_eq_group hdrop) hreads hfactor hafter
  case afterOperand =>
    intro level pending operand position ih error before second hedges htake hreads hfactor h
    rw [outcome_afterFactor] at h
    split at h
    next op htoken =>
      have hnext := hreads.next hfactor op
      rw [← htake, ← take_succ_of_getElem? htoken] at hnext
      exact ih op htoken error hedges hnext h
    next htoken =>
      cases h
      have hsplit := List.take_append_drop position level
      rw [drop_eq_cons_of_getElem? htoken, htake] at hsplit
      rw [← hsplit]
      exact (hreads.balanced.append hfactor.balanced).not_balanced_append_closeParen _
    next token hoperator hclose htoken =>
      cases h
      have hsplit := List.take_append_drop position level
      rw [drop_eq_cons_of_getElem? htoken, htake] at hsplit
      exact justified_of_operand_met .recursiveDescent hsplit.symm hfactor
        (fun op hop => hoperator op hop) hclose
    next => cases h

namespace Yard

theorem exists_refused {yard : Yard} {tokens : List Token} {error : SyntaxError}
    (h : yard.feedAll tokens = .error error) :
    ∃ before token rest, ∃ yard' : Yard, tokens = before ++ token :: rest ∧
      yard.feedAll before = .ok yard' ∧ (yard'.feed token).outcome = .error error := by
  induction tokens generalizing yard with
  | nil => cases h
  | cons token rest ih =>
      rw [feedAll_cons, Traced.bind_eq_error_iff] at h
      obtain hrefused | ⟨middle, htoken, hrest⟩ := h
      · exact ⟨[], token, rest, yard, rfl, rfl, hrefused⟩
      · obtain ⟨before, token', rest', yard', rfl, hbefore, hrefused⟩ := ih hrest
        refine ⟨token :: before, token', rest', yard', rfl, ?_, hrefused⟩
        rw [feedAll_cons_of_ok htoken, hbefore]

theorem After.justified {before rest tokens : List Token} {token : Token} {yard : Yard}
    {error : SyntaxError} (h : After before yard) (hsplit : tokens = before ++ token :: rest)
    (hedges : HasOperandEdges tokens) (hrefused : (yard.feed token).outcome = .error error) :
    error.Justified .shuntingYard tokens := by
  cases h with
  | @due _ pending outer hreads =>
      have hunexpected := justified_of_operand_due .shuntingYard hsplit hedges
        hreads.endsOperand_of_getLast?
      cases token with
      | literal value => cases hrefused
      | openParen => cases hrefused
      | closeParen =>
          rw [feed_due_closeParen] at hrefused
          split at hrefused
          next hopen =>
            cases hrefused
            rw [← hreads.getLast?_eq] at hopen
            exact pair_infix hsplit hopen
          next =>
            cases hrefused
            exact hunexpected (by simp) (by simp)
      | _ =>
          cases hrefused
          exact hunexpected (by simp) (by simp)
  | @met before second pending outer operand hreads hfactor =>
      have hunexpected := justified_of_operand_met .shuntingYard hsplit hfactor
      cases token with
      | operator op =>
          rw [feed_met_operator hreads.ranked] at hrefused
          cases hrefused
      | closeParen =>
          cases outer with
          | nil =>
              rw [feed_met_closeParen_outermost] at hrefused
              cases hrefused
              have hbefore := Bracket.balanced_iff_depthThrough.mpr hreads.depthThrough_eq
              rw [hsplit]
              exact (hbefore.append hfactor.balanced).not_balanced_append_closeParen rest
          | cons pending' outer =>
              rw [feed_met_closeParen] at hrefused
              cases hrefused
      | _ =>
          cases hrefused
          exact hunexpected (by simp) (by simp)

end Yard

theorem justified_of_outcome_postfixOrder_eq_error {tokens : List Token} {error : ParseError}
    (hedges : HasOperandEdges tokens) (h : (postfixOrder tokens).outcome = .error error) :
    error.Justified .shuntingYard tokens := by
  rw [outcome_postfixOrder, Traced.bind_eq_error_iff] at h
  obtain hfed | ⟨yard, hfed, hend⟩ := h
  · obtain ⟨error', hrefused, rfl⟩ := Traced.mapError_eq_error_iff.mp hfed
    obtain ⟨before, token, rest, yard, hsplit, hbefore, hrefused⟩ := Yard.exists_refused hrefused
    exact (Yard.after_of_feedAll hbefore).justified hsplit hedges hrefused
  · have hafter := Yard.after_of_feedAll (Traced.mapError_eq_ok_iff.mp hfed)
    cases hafter with
    | due hreads => exact absurd hreads.endsOperand_of_getLast? hedges.not_due
    | @met before second pending outer operand hreads hfactor =>
        have hfinish : (Yard.met pending outer operand).finish.mapError ParseError.illFormed =
            .error error := hend
        cases outer with
        | nil =>
            rw [Yard.finish_met_outermost] at hfinish
            cases hfinish
        | cons pending' outer =>
            rw [Yard.finish_met_group] at hfinish
            cases hfinish
            intro hbalanced
            rw [Bracket.balanced_iff_depthThrough, Bracket.depthThrough_append,
              hreads.depthThrough_eq, Option.bind_some, hfactor.balanced.depthThrough] at hbalanced
            cases hbalanced

namespace Strategy

theorem justified_of_outcome_read_eq_error {strategy : Strategy} {tokens : List Token}
    {error : ParseError} (hnonempty : tokens ≠ [])
    (h : (strategy.read tokens).outcome = .error error) : error.Justified strategy tokens := by
  cases strategy with
  | recursiveDescent =>
      rw [read, Traced.outcome_mapError, Traced.mapError_eq_error_iff] at h
      obtain ⟨error', h, rfl⟩ := h
      exact justified_of_outcome_eq_error.1 tokens error' hnonempty h
  | shuntingYard =>
      rw [outcome_read_shuntingYard, Traced.bind_eq_error_iff] at h
      obtain hcheck | ⟨_, hcheck, hrest⟩ := h
      · obtain ⟨error', hedges, rfl⟩ := Traced.mapError_eq_error_iff.mp hcheck
        exact justified_of_checkEdges_eq_error .shuntingYard hnonempty hedges
      · have hedges := checkEdges_eq_ok_iff.mp (Traced.mapError_eq_ok_iff.mp hcheck)
        obtain horder | ⟨ordered, horder, hbuild⟩ := Traced.bind_eq_error_iff.mp hrest
        · exact justified_of_outcome_postfixOrder_eq_error hedges horder
        · obtain ⟨e, -, rfl⟩ := outcome_postfixOrder_eq_ok_iff.mp horder
          rw [Expr.ofPostfix_toPostfix] at hbuild
          cases hbuild

/-- Every error of either strategy has its reason in the tokens. -/
theorem justified_of_parse_error {strategy : Strategy} {tokens : List Token} {error : ParseError}
    (h : (strategy.parse tokens).outcome = .error error) : error.Justified strategy tokens := by
  rw [outcome_parse] at h
  split at h
  next hempty =>
    cases h
    exact List.isEmpty_iff.mp hempty
  next hnonempty =>
    exact justified_of_outcome_read_eq_error (fun hnil => hnonempty (List.isEmpty_iff.mpr hnil)) h

theorem justified_of_parse_error_inside_group :
    let one : Token := .literal { toInt := 1 }
    let tokens : List Token := [.openParen, one, .operator .multiply, .openParen, one,
      .operator .add, .closeParen, .closeParen]
    let error : ParseError := .illFormed (.danglingOperator .add)
    (recursiveDescent.parse tokens).outcome = .error error ∧
      error.Justified .recursiveDescent tokens ∧
      tokens.head? ≠ some (.operator .add) ∧ tokens.getLast? ≠ some (.operator .add) := by
  intro one tokens error
  have herror : (recursiveDescent.parse tokens).outcome = .error error := by
    decide +kernel
  exact ⟨herror, justified_of_parse_error herror, by decide, by decide⟩

end Strategy

end InfixArithmetic
