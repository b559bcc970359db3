import InfixArithmetic.Tree
import InfixArithmetic.Proofs.PostfixBuilding
import InfixArithmetic.Proofs.TokenText

namespace InfixArithmetic

theorem Expr.toPostfix_ne_nil (e : Expr) : e.toPostfix ≠ [] := by
  cases e <;> simp [toPostfix]

namespace Tree

theorem outcome_tokenize_postfixText (e : Expr) (strategy : Strategy) :
    (tokenize (postfixText { root := some e, strategy })).outcome = .ok e.toPostfix :=
  outcome_tokenize_joinText e.toPostfix_ne_nil
    (Expr.forall_mem_toPostfix Token.legible_literal Token.legible_operator e)

theorem outcome_ofPostfix (text : String) :
    (ofPostfix text).outcome = (tokenize text).outcome.bind fun tokens =>
      (Expr.ofPostfix tokens).bind fun root => .ok { root := some root } := by
  simp only [ofPostfix, Traced.outcome_bind, Traced.outcome_ofExcept, Traced.outcome_log,
    Traced.outcome_pure]
  rfl

theorem outcome_ofPostfix_eq_ok_iff {text : String} {tree : Tree} :
    (ofPostfix text).outcome = .ok tree ↔
      ∃ e : Expr, (tokenize text).outcome = .ok e.toPostfix ∧ tree = { root := some e } := by
  rw [outcome_ofPostfix]
  simp only [Traced.bind_eq_ok_iff]
  constructor
  · rintro ⟨tokens, htokens, e, he, htree⟩
    cases htree
    rw [Expr.eq_toPostfix_of_ofPostfix he] at htokens
    exact ⟨e, htokens, rfl⟩
  · rintro ⟨e, htokens, rfl⟩
    exact ⟨e.toPostfix, htokens, e, Expr.ofPostfix_toPostfix e, rfl⟩

/-- Postfix texts lose nothing: an expression is read back from its text, and a text that is read
has the tokens of the text of what was read. -/
theorem postfixText_reads_back :
    (∀ (e : Expr) (strategy : Strategy),
      (ofPostfix (postfixText { root := some e, strategy })).outcome = .ok { root := some e }) ∧
    (∀ (text : String) (tree : Tree), (ofPostfix text).outcome = .ok tree →
      (tokenize tree.postfixText).outcome = (tokenize text).outcome) := by
  constructor
  · intro e strategy
    rw [outcome_ofPostfix_eq_ok_iff]
    exact ⟨e, outcome_tokenize_postfixText e strategy, rfl⟩
  · intro text tree h
    obtain ⟨e, htokens, rfl⟩ := outcome_ofPostfix_eq_ok_iff.mp h
    rw [outcome_tokenize_postfixText, htokens]

theorem postfixText_reads_back_of_superfluous_zeros :
    let text := "007\t-2147483648\n -  +5 -0\u3000/ * "
    let difference := Expr.operation .subtract (.literal { toInt := 7 })
      (.literal { toInt := -2147483648 })
    let quotient := Expr.operation .divide (.literal { toInt := 5 }) (.literal 0)
    let product := Expr.operation .multiply difference quotient
    let tree : Tree := { root := some product }
    (ofPostfix text).outcome = .ok tree ∧
      (tokenize tree.postfixText).outcome = (tokenize text).outcome := by
  intro text difference quotient product tree
  have htokens : (tokenize text).outcome = .ok product.toPostfix :=
    outcome_tokenize_of_atoms product.toPostfix_ne_nil (by decide)
  have hread : (ofPostfix text).outcome = .ok tree :=
    outcome_ofPostfix_eq_ok_iff.mpr ⟨product, htokens, rfl⟩
  exact ⟨hread, postfixText_reads_back.2 text tree hread⟩

end Tree

end InfixArithmetic
