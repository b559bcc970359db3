import InfixArithmetic.Proofs.StrategyGrammar

/-!
Token sequences on which both strategies report the same error. Recursive descent looks ahead, to
the end of a group and to the edges of its inside, while the yard never looks beyond the current
token. Where every group is closed and no operator stands at its edges, looking ahead finds nothing,
so that the yard keeps in step with the descent up to the first token that either refuses.
-/

namespace InfixArithmetic

open Descent Yard

/-- No operator follows an opening parenthesis or precedes a closing one. -/
def InnerEdgesFree (tokens : List Token) : Prop :=
  ∀ op, ¬[.openParen, .operator op] <:+: tokens ∧ ¬[.operator op, .closeParen] <:+: tokens

theorem InnerEdgesFree.of_infix {part tokens : List Token} (h : InnerEdgesFree tokens)
    (k : part <:+: tokens) : InnerEdgesFree part := by
  intro op
  exact ⟨fun hopen => (h op).1 (hopen.trans k), fun hclose => (h op).2 (hclose.trans k)⟩

/-- What is left to read of a level where looking ahead finds nothing. A level inside others ends
where its group is closed, so it has no closing parentheses in excess. -/
structure Plain (outer : List Pending) (rest : List Token) : Prop where
  closed : Bracket.AllClosed rest
  innerEdgesFree : InnerEdgesFree rest
  balanced : outer ≠ [] → Bracket.Balanced rest
  endsOperand : ∀ token ∈ rest.getLast?, token.endsOperand

/-- The level does not end here. -/
def GoesOn (rest : List Token) : Prop :=
  ∃ token tail, rest = token :: tail ∧ token ≠ .closeParen

theorem HasOperandEdges.goesOn {level : List Token} (h : HasOperandEdges level) : GoesOn level := by
  obtain ⟨hstart, -⟩ := h
  cases level with
  | nil => cases hstart
  | cons token tail =>
      refine ⟨token, tail, rfl, ?_⟩
      rintro rfl
      cases hstart

namespace Plain

variable {outer : List Pending} {first rest inside : List Token}

theorem of_append (h : Plain outer (first ++ rest)) (hfirst : Bracket.Balanced first) :
    Plain outer rest where
  closed := h.closed.of_append
  innerEdgesFree := h.innerEdgesFree.of_infix (List.suffix_append first rest).isInfix
  balanced houter := hfirst.of_append (h.balanced houter)
  endsOperand := by
    intro token htoken
    apply h.endsOperand
    rw [List.getLast?_append, Option.mem_def.mp htoken, Option.some_or]
    rfl

theorem of_cons {token : Token} (h : Plain outer (token :: rest))
    (htoken : token.isParenthesis = false) : Plain outer rest := by
  rw [← List.singleton_append] at h
  exact h.of_append (Bracket.balanced_singleton htoken)

theorem goesOn_of_operator {op : Operator} (h : Plain outer (.operator op :: rest)) :
    GoesOn rest := by
  cases rest with
  | nil =>
      have hend := h.endsOperand (.operator op) rfl
      cases hend
  | cons token tail =>
      refine ⟨token, tail, rfl, ?_⟩
      rintro rfl
      exact (h.innerEdgesFree op).2 ⟨[], tail, rfl⟩

theorem hasOperandEdges_inside (h : Plain outer (.openParen :: (inside ++ .closeParen :: rest)))
    (hinside : Bracket.Balanced inside) (hnonempty : inside ≠ []) : HasOperandEdges inside := by
  constructor
  · cases inside with
    | nil => exact absurd rfl hnonempty
    | cons token tail =>
        cases token with
        | operator op => exact absurd ⟨[], _, rfl⟩ (h.innerEdgesFree op).1
        | closeParen => exact absurd hinside (Bracket.not_balanced_closeParen_cons tail)
        | _ => rfl
  · obtain hnil | ⟨init, token, rfl⟩ := List.eq_nil_or_concat inside
    · exact absurd hnil hnonempty
    · rw [List.concat_eq_append] at h hinside ⊢
      rw [List.getLast?_concat]
      cases token with
      | operator op =>
          have hclose : [.operator op, .closeParen] <:+:
              .openParen :: (init ++ [.operator op] ++ .closeParen :: rest) :=
            ⟨.openParen :: init, rest, by simp⟩
          exact absurd hclose (h.innerEdgesFree op).2
      | openParen =>
          obtain ⟨between, after, hsplit, -⟩ := hinside.allClosed init [] rfl
          simp at hsplit
      | _ => rfl

theorem of_inside (h : Plain outer (.openParen :: (inside ++ .closeParen :: rest)))
    (hinside : Bracket.Balanced inside) (hnonempty : inside ≠ []) (outer' : List Pending) :
    Plain outer' inside where
  closed := hinside.allClosed
  innerEdgesFree := h.innerEdgesFree.of_infix ⟨[.openParen], .closeParen :: rest, by simp⟩
  balanced _ := hinside
  endsOperand := by
    intro token htoken
    have hend := (h.hasOperandEdges_inside hinside hnonempty).2
    rw [Option.mem_def.mp htoken] at hend
    exact hend

theorem after_group (h : Plain outer (.openParen :: (inside ++ .closeParen :: rest)))
    (hinside : Bracket.Balanced inside) : Plain outer rest := by
  have hgroup : Token.openParen :: (inside ++ .closeParen :: rest) =
      (.openParen :: inside ++ [.closeParen]) ++ rest := by simp
  rw [hgroup] at h
  exact h.of_append hinside.group

end Plain

/-- Descent over the rest of a level and the yard over the same tokens: both refuse them with the
same error, or both have the same expression in hand. -/
inductive InStep (outer : List Pending) :
    Except SyntaxError Expr → Except SyntaxError Yard → Prop where
  | refused (error : SyntaxError) : InStep outer (.error error) (.error error)
  | read {pending : Pending} (operand : Expr) :
      pending.Ranked →
      InStep outer (.ok (pending.finish operand)) (.ok (met pending outer operand))

theorem InStep.bind {outer outer' : List Pending} {read : Except SyntaxError Expr}
    {fed : Except SyntaxError Yard} {next : Expr → Except SyntaxError Expr}
    {feedNext : Yard → Except SyntaxError Yard} (h : InStep outer read fed)
    (hnext : ∀ pending operand, InStep outer' (next (pending.finish operand))
      (feedNext (met pending outer operand))) :
    InStep outer' (read.bind next) (fed.bind feedNext) := by
  cases h with
  | refused error => exact .refused error
  | @read pending operand _ => exact hnext pending operand

theorem feedAll_of_operandAt_eq_error {level : List Token} {position : Nat} {error : SyntaxError}
    {outer : List Pending} (hoperand : operandAt level position = .error error)
    (hplain : Plain outer (level.drop position)) (hgoesOn : GoesOn (level.drop position))
    (pending : Pending) : (due pending outer).feedAll (level.drop position) = .error error := by
  obtain ⟨token, tail, hdrop, htoken⟩ := hgoesOn
  have hposition := getElem?_of_drop_eq_cons hdrop
  cases token with
  | literal value =>
      rw [operandAt_eq_literal_iff.mpr hposition] at hoperand
      cases hoperand
  | openParen =>
      obtain ⟨inside, rest, hafter, hinside⟩ := hplain.closed [] tail hdrop
      rw [hafter] at hdrop
      rw [operandAt_eq_group_iff.mpr ⟨inside, rest, hdrop, hinside, rfl⟩] at hoperand
      cases hoperand
  | closeParen => exact absurd rfl htoken
  | _ =>
      simp only [operandAt, hposition, Except.error.injEq] at hoperand
      rw [hdrop, feedAll_cons, ← hoperand]
      rfl

theorem outcome_expression_nil : (expression []).outcome = .error .emptyParentheses := by
  rw [outcome_expression]
  rfl

theorem feedAll_due_closeParen (outer : List Pending) (pending : Pending) (rest : List Token) :
    (due {} (pending :: outer)).feedAll (.closeParen :: rest) = .error .emptyParentheses := by
  have hopen : (due {} (pending :: outer)).stack.head? = some .openParen := rfl
  rw [feedAll_cons, feed_due_closeParen, if_pos hopen]
  rfl

theorem inStep_afterFactor {level : List Token} {pending : Pending} {operand : Expr}
    {position : Nat} {outer : List Pending} (hranked : pending.Ranked)
    (hplain : Plain outer (level.drop position))
    (hoperator : ∀ op, level[position]? ≠ some (.operator op)) :
    InStep outer (afterFactor level pending operand position).outcome
      ((met pending outer operand).feedAll (level.drop position)) := by
  rw [outcome_afterFactor]
  split
  next op htoken => exact absurd htoken (hoperator op)
  next htoken =>
    have hdrop := drop_eq_cons_of_getElem? htoken
    rw [hdrop] at hplain
    rw [hdrop, feedAll_cons]
    cases outer with
    | nil =>
        rw [feed_met_closeParen_outermost]
        exact .refused .unmatchedParenthesis
    | cons pending' outer =>
        have hbalanced := hplain.balanced (List.cons_ne_nil pending' outer)
        exact absurd hbalanced (Bracket.not_balanced_closeParen_cons _)
  next token _ hclose htoken =>
    rw [drop_eq_cons_of_getElem? htoken, feedAll_cons]
    cases token with
    | operator op => exact absurd htoken (hoperator op)
    | closeParen => exact absurd rfl hclose
    | _ => exact .refused _
  next hend =>
    rw [List.drop_eq_nil_of_le (List.getElem?_eq_none_iff.mp hend)]
    exact .read operand hranked

-- At each operand, at each operator and at each end of a group the yard takes in the tokens that
-- the descent has gone over.
theorem inStep :
    (∀ level outer, HasOperandEdges level → Plain outer level →
      InStep outer (expression level).outcome ((due {} outer).feedAll level)) ∧
    (∀ level pending position outer, pending.Ranked → Plain outer (level.drop position) →
      GoesOn (level.drop position) →
      InStep outer (factor level pending position).outcome
        ((due pending outer).feedAll (level.drop position))) ∧
    (∀ level pending operand position outer, pending.Ranked →
      Plain outer (level.drop position) →
      InStep outer (afterFactor level pending operand position).outcome
        ((met pending outer operand).feedAll (level.drop position))) := by
  apply reader_induct
  case level =>
    intro level ih outer hedges hplain
    rw [outcome_expression, checkEdges_eq_ok_iff.mpr hedges]
    exact ih outer Pending.ranked_empty hplain hedges.goesOn
  case noOperand =>
    intro level pending position error hoperand outer _ hplain hgoesOn
    rw [factor_of_error pending hoperand,
      feedAll_of_operandAt_eq_error hoperand hplain hgoesOn pending]
    exact .refused error
  case literal =>
    intro level pending position value hoperand ih outer hranked hplain _
    have hdrop := drop_eq_cons_of_getElem? (operandAt_eq_literal_iff.mp hoperand)
    rw [hdrop] at hplain
    rw [factor_of_literal pending hoperand, hdrop,
      feedAll_cons_of_ok (feed_due_literal pending outer value)]
    exact ih outer hranked (hplain.of_cons rfl)
  case group =>
    intro level pending position close hoperand ihInside ihAfter outer hranked hplain _
    obtain ⟨inside, rest, hdrop, hinside, rfl⟩ := operandAt_eq_group_iff.mp hoperand
    have hrest := drop_of_drop_eq_group hdrop
    rw [hdrop] at hplain
    rw [extract_of_drop_eq_group hdrop] at ihInside
    rw [outcome_factor_of_group pending hoperand, extract_of_drop_eq_group hdrop, hdrop,
      feedAll_cons_of_ok (feed_due_openParen pending outer), feedAll_append]
    by_cases hnonempty : inside = []
    · rw [hnonempty, outcome_expression_nil, feedAll_nil]
      have hclose := feedAll_due_closeParen outer pending rest
      simp only [Except.bind, hclose]
      exact .refused .emptyParentheses
    · have hedges := hplain.hasOperandEdges_inside hinside hnonempty
      have hread := ihInside (pending :: outer) hedges (hplain.of_inside hinside hnonempty _)
      apply hread.bind
      intro pending' operand
      rw [feedAll_cons_of_ok (feed_met_closeParen pending' pending outer operand), ← hrest]
      apply ihAfter _ outer hranked
      rw [hrest]
      exact hplain.after_group hinside
  case afterOperand =>
    intro level pending operand position ih outer hranked hplain
    by_cases hoperator : ∃ op, level[position]? = some (.operator op)
    · obtain ⟨op, htoken⟩ := hoperator
      have hdrop := drop_eq_cons_of_getElem? htoken
      rw [hdrop] at hplain
      rw [outcome_afterFactor, htoken, hdrop,
        feedAll_cons_of_ok (feed_met_operator hranked outer operand op)]
      exact ih op htoken outer (hranked.next operand op) (hplain.of_cons rfl)
        hplain.goesOn_of_operator
    · exact inStep_afterFactor hranked hplain (not_exists.mp hoperator)

namespace Strategy

theorem outcome_read_eq_of_checkEdges_error {tokens : List Token} {error : SyntaxError}
    (h : checkEdges tokens = .error error) (strategy : Strategy) :
    (strategy.read tokens).outcome = .error (.illFormed error) := by
  cases strategy with
  | recursiveDescent =>
      rw [read, Traced.outcome_mapError, outcome_expression, h]
      rfl
  | shuntingYard =>
      rw [outcome_read_shuntingYard, h]
      rfl

theorem outcome_read_eq_of_hasOperandEdges {tokens : List Token}
    (hclosed : Bracket.AllClosed tokens) (hinner : InnerEdgesFree tokens)
    (hedges : HasOperandEdges tokens) :
    (recursiveDescent.read tokens).outcome = (shuntingYard.read tokens).outcome := by
  have hplain : Plain [] tokens := by
    refine ⟨hclosed, hinner, fun hnil => absurd rfl hnil, ?_⟩
    intro token htoken
    have hend := hedges.2
    rw [Option.mem_def.mp htoken] at hend
    exact hend
  have hstep : InStep [] (expression tokens).outcome (Yard.feedAll {} tokens) :=
    inStep.1 tokens [] hedges hplain
  rw [read, Traced.outcome_mapError, outcome_read_shuntingYard, checkEdges_eq_ok_iff.mpr hedges]
  generalize hread : (expression tokens).outcome = read at hstep
  generalize hfed : Yard.feedAll {} tokens = fed at hstep
  cases hstep with
  | refused error =>
      rw [outcome_postfixOrder_of_error hfed]
      rfl
  | @read pending operand _ =>
      rw [outcome_postfixOrder_of_met hfed]
      exact (Expr.ofPostfix_toPostfix _).symm

/-- Both strategies give the same result, also the same error, if every group is closed and no
operator stands right after an opening or right before a closing parenthesis. -/
theorem strategies_report_the_same {tokens : List Token} (hclosed : Bracket.AllClosed tokens)
    (hinner : InnerEdgesFree tokens) :
    (recursiveDescent.parse tokens).outcome = (shuntingYard.parse tokens).outcome := by
  rw [outcome_parse, outcome_parse]
  cases hedges : checkEdges tokens with
  | error error =>
      rw [outcome_read_eq_of_checkEdges_error hedges, outcome_read_eq_of_checkEdges_error hedges]
  | ok _ =>
      rw [outcome_read_eq_of_hasOperandEdges hclosed hinner (checkEdges_eq_ok_iff.mp hedges)]

theorem strategies_report_the_same_of_nested_groups :
    let one : Token := .literal { toInt := 1 }
    let tokens : List Token := [.openParen, one, .operator .multiply, .openParen, one, .closeParen,
      .unrecognized "x", .closeParen, .closeParen, one]
    Bracket.AllClosed tokens ∧ InnerEdgesFree tokens ∧
      (recursiveDescent.parse tokens).outcome = (shuntingYard.parse tokens).outcome ∧
      (shuntingYard.parse tokens).outcome = .error (.illFormed (.invalidFactor "x")) := by
  intro one tokens
  have hclosed : Bracket.AllClosed tokens := by decide
  have hinner : InnerEdgesFree tokens := by
    intro op
    simp [tokens, one, List.infix_cons_iff]
  exact ⟨hclosed, hinner, strategies_report_the_same hclosed hinner, by rfl⟩

end Strategy

end InfixArithmetic
