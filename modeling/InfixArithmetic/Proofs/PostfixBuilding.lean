import InfixArithmetic.Expr.Postfix
import InfixArithmetic.Expr.Traversal

namespace InfixArithmetic.Expr

theorem foldlM_push_toPostfix (e : Expr) (stack : List Expr) :
    e.toPostfix.foldlM push stack = .ok (e :: stack) := by
  induction e generalizing stack with
  | literal value => rfl
  | operation op left right ihLeft ihRight =>
      rw [toPostfix, List.foldlM_append, List.foldlM_append, ihLeft]
      simp only [bind, Except.bind]
      rw [ihRight]
      rfl

theorem ofPostfix_toPostfix (e : Expr) : ofPostfix e.toPostfix = .ok e := by
  rw [ofPostfix, foldlM_push_toPostfix]
  rfl

/-- The tokens that a stack stands for. -/
def stackTokens (stack : List Expr) : List Token :=
  stack.reverse.flatMap toPostfix

theorem stackTokens_cons (e : Expr) (stack : List Expr) :
    stackTokens (e :: stack) = stackTokens stack ++ e.toPostfix := by
  rw [stackTokens, List.reverse_cons, List.flatMap_append, List.flatMap_singleton, stackTokens]

theorem stackTokens_push {stack stack' : List Expr} {token : Token}
    (h : push stack token = .ok stack') : stackTokens stack' = stackTokens stack ++ [token] := by
  cases token with
  | literal value =>
      cases h
      exact stackTokens_cons (literal value) stack
  | operator op =>
      match stack, h with
      | right :: left :: rest, rfl => simp [stackTokens_cons, toPostfix]
  | _ => cases h

theorem stackTokens_foldlM_push {tokens : List Token} {stack stack' : List Expr}
    (h : tokens.foldlM push stack = .ok stack') :
    stackTokens stack' = stackTokens stack ++ tokens := by
  induction tokens generalizing stack with
  | nil =>
      cases h
      rw [List.append_nil]
  | cons token rest ih =>
      rw [List.foldlM_cons] at h
      cases hpush : push stack token with
      | error error =>
          rw [hpush] at h
          cases h
      | ok middle =>
          rw [hpush] at h
          rw [ih h, stackTokens_push hpush, List.append_assoc, List.singleton_append]

theorem eq_toPostfix_of_ofPostfix {tokens : List Token} {e : Expr}
    (h : ofPostfix tokens = .ok e) : tokens = e.toPostfix := by
  rw [ofPostfix] at h
  cases hstack : tokens.foldlM push [] with
  | error error =>
      rw [hstack] at h
      cases h
  | ok stack =>
      rw [hstack] at h
      match stack, h with
      | [root], rfl =>
          have htokens := stackTokens_foldlM_push hstack
          rw [stackTokens_cons] at htokens
          exact htokens.symm

theorem toPostfix_inj {e e' : Expr} : e.toPostfix = e'.toPostfix ↔ e = e' := by
  constructor
  · intro h
    have hread := ofPostfix_toPostfix e
    rw [h, ofPostfix_toPostfix] at hread
    exact (Except.ok.inj hread).symm
  · rintro rfl
    rfl

/-- Reading inverts the postfix order: it accepts the postfix orders of expressions and nothing
else, and the tokens that it accepts are the postfix order of one expression only. -/
theorem ofPostfix_eq_ok_iff_toPostfix (tokens : List Token) (e : Expr) :
    (ofPostfix tokens = .ok e ↔ tokens = e.toPostfix) ∧
      ∀ e' : Expr, e.toPostfix = e'.toPostfix ↔ e = e' := by
  refine ⟨⟨eq_toPostfix_of_ofPostfix, ?_⟩, fun _ => toPostfix_inj⟩
  rintro rfl
  exact ofPostfix_toPostfix e

end InfixArithmetic.Expr
