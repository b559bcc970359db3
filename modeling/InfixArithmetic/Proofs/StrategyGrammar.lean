import InfixArithmetic.Strategy.Parse
import InfixArithmetic.Proofs.DescentGrammar
import InfixArithmetic.Proofs.PostfixBuilding
import InfixArithmetic.Proofs.YardGrammar

namespace InfixArithmetic.Strategy

open Grammar

theorem outcome_parse (strategy : Strategy) (tokens : List Token) :
    (strategy.parse tokens).outcome =
      if tokens.isEmpty then .error .emptyInput else (strategy.read tokens).outcome := by
  rw [parse]
  split
  · rfl
  · rw [Traced.outcome_bind]
    cases (strategy.read tokens).outcome <;> rfl

theorem outcome_parse_of_ne_nil (strategy : Strategy) {tokens : List Token} (h : tokens ≠ []) :
    (strategy.parse tokens).outcome = (strategy.read tokens).outcome := by
  rw [outcome_parse, if_neg]
  rwa [List.isEmpty_iff]

theorem outcome_parse_eq_ok_iff_read {strategy : Strategy} {tokens : List Token} {e : Expr} :
    (strategy.parse tokens).outcome = .ok e ↔
      tokens ≠ [] ∧ (strategy.read tokens).outcome = .ok e := by
  rw [outcome_parse]
  cases tokens <;> simp

theorem outcome_read_recursiveDescent_eq_ok_iff {tokens : List Token} {e : Expr} :
    (recursiveDescent.read tokens).outcome = .ok e ↔ Expression tokens e := by
  rw [read, Traced.outcome_mapError, Traced.mapError_eq_ok_iff,
    Descent.outcome_expression_eq_ok_iff]

theorem outcome_read_shuntingYard (tokens : List Token) :
    (shuntingYard.read tokens).outcome =
      ((checkEdges tokens).mapError .illFormed).bind fun _ =>
        (postfixOrder tokens).outcome.bind fun ordered => Expr.ofPostfix ordered := by
  simp only [read, Traced.outcome_bind, Traced.outcome_ofExcept, Traced.outcome_log]
  rfl

theorem outcome_read_shuntingYard_eq_ok_iff {tokens : List Token} {e : Expr} :
    (shuntingYard.read tokens).outcome = .ok e ↔ Expression tokens e := by
  rw [outcome_read_shuntingYard]
  simp only [Traced.bind_eq_ok_iff, Traced.mapError_eq_ok_iff, outcome_postfixOrder_eq_ok_iff]
  constructor
  · rintro ⟨-, -, ordered, ⟨e', h, rfl⟩, hbuild⟩
    rw [Expr.ofPostfix_toPostfix] at hbuild
    cases hbuild
    exact h
  · intro h
    exact ⟨(), h.checkEdges, _, ⟨e, h, rfl⟩, Expr.ofPostfix_toPostfix e⟩

theorem outcome_parse_eq_ok_iff {strategy : Strategy} {tokens : List Token} {e : Expr} :
    (strategy.parse tokens).outcome = .ok e ↔ Expression tokens e := by
  have hread : (strategy.read tokens).outcome = .ok e ↔ Expression tokens e := by
    cases strategy with
    | recursiveDescent => exact outcome_read_recursiveDescent_eq_ok_iff
    | shuntingYard => exact outcome_read_shuntingYard_eq_ok_iff
  rw [outcome_parse_eq_ok_iff_read, hread]
  exact and_iff_right_of_imp Expression.ne_nil

/-- Recursive descent reads exactly the token sequences that the grammar derives, as the
expression that it derives. -/
theorem recursiveDescent_parse_eq_ok_iff (tokens : List Token) (e : Expr) :
    (recursiveDescent.parse tokens).outcome = .ok e ↔ Expression tokens e := by
  rw [outcome_parse_eq_ok_iff_read, outcome_read_recursiveDescent_eq_ok_iff]
  constructor
  · rintro ⟨-, h⟩
    exact h
  · intro h
    exact ⟨h.ne_nil, h⟩

/-- The strategies are interchangeable: they read the same token sequences, with the same
expression. -/
theorem strategies_agree (tokens : List Token) :
    (∀ e, (recursiveDescent.parse tokens).outcome = .ok e ↔
      (shuntingYard.parse tokens).outcome = .ok e) ∧
    ((∃ e, (recursiveDescent.parse tokens).outcome = .ok e ∧
        (shuntingYard.parse tokens).outcome = .ok e) ∨
      ∃ error error', (recursiveDescent.parse tokens).outcome = .error error ∧
        (shuntingYard.parse tokens).outcome = .error error') := by
  have hagree : ∀ e, (recursiveDescent.parse tokens).outcome = .ok e ↔
      (shuntingYard.parse tokens).outcome = .ok e := by
    intro e
    rw [outcome_parse_eq_ok_iff_read, outcome_parse_eq_ok_iff_read,
      outcome_read_recursiveDescent_eq_ok_iff, outcome_read_shuntingYard_eq_ok_iff]
  refine ⟨hagree, ?_⟩
  cases hdescent : (recursiveDescent.parse tokens).outcome with
  | ok e => exact .inl ⟨e, rfl, (hagree e).mp hdescent⟩
  | error error =>
      cases hyard : (shuntingYard.parse tokens).outcome with
      | ok e =>
          rw [(hagree e).mpr hyard] at hdescent
          cases hdescent
      | error error' => exact .inr ⟨error, error', rfl, rfl⟩

end InfixArithmetic.Strategy
