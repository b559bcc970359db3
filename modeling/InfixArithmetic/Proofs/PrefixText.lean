import InfixArithmetic.Tree
import InfixArithmetic.Proofs.TokenText

namespace InfixArithmetic

namespace Text

def withoutParens (text : String) : String :=
  String.ofList (text.toList.filter fun c => c ≠ '(' ∧ c ≠ ')')

theorem withoutParens_append (first second : String) :
    withoutParens (first ++ second) = withoutParens first ++ withoutParens second := by
  rw [withoutParens, String.toList_append, List.filter_append, String.ofList_append]
  rfl

theorem withoutParens_of_not_mem {text : String} (hopen : '(' ∉ text.toList)
    (hclose : ')' ∉ text.toList) : withoutParens text = text := by
  have hkept : ∀ c ∈ text.toList, decide (c ≠ '(' ∧ c ≠ ')') = true := by
    intro c hc
    rw [decide_eq_true_eq]
    exact ⟨ne_of_mem_of_not_mem hc hopen, ne_of_mem_of_not_mem hc hclose⟩
  rw [withoutParens, List.filter_eq_self.mpr hkept, String.ofList_toList]

end Text

theorem Value.not_mem_decimal {c : Char} (hminus : c ≠ '-') (hdigit : c.isDigit = false)
    (v : Value) : c ∉ v.decimal.toList := by
  intro h
  rcases eq_minus_or_isDigit_of_mem_decimal h with rfl | hc
  · exact hminus rfl
  · rw [hdigit] at hc
    cases hc

theorem Value.withoutParens_decimal (v : Value) : Text.withoutParens v.decimal = v.decimal :=
  Text.withoutParens_of_not_mem (v.not_mem_decimal (by decide) (by decide))
    (v.not_mem_decimal (by decide) (by decide))

theorem Operator.withoutParens_text (op : Operator) : Text.withoutParens op.text = op.text := by
  cases op <;> rfl

theorem Token.joinText_singleton (t : Token) : joinText [t] = t.text :=
  String.intercalate_singleton

theorem Token.joinText_append {first second : List Token} (hfirst : first ≠ [])
    (hsecond : second ≠ []) :
    joinText (first ++ second) = joinText first ++ " " ++ joinText second := by
  rw [joinText, List.map_append, String.intercalate_append_of_ne_nil]
  · rfl
  · rw [ne_eq, List.map_eq_nil_iff]
    exact hfirst
  · rw [ne_eq, List.map_eq_nil_iff]
    exact hsecond

namespace Expr

theorem toPrefix_ne_nil (e : Expr) : e.toPrefix ≠ [] := by
  cases e <;> simp [toPrefix]

/-- Whatever follows the tokens of an expression, they tell the expression and where it ends. -/
theorem toPrefix_append_inj {e e' : Expr} {rest rest' : List Token} :
    e.toPrefix ++ rest = e'.toPrefix ++ rest' ↔ e = e' ∧ rest = rest' := by
  constructor
  · intro h
    induction e generalizing e' rest rest' with
    | literal value =>
        cases e' with
        | literal value' =>
            cases h
            exact ⟨rfl, rfl⟩
        | operation op' left' right' => cases h
    | operation op left right ihLeft ihRight =>
        cases e' with
        | literal value' => cases h
        | operation op' left' right' =>
            simp only [toPrefix, List.cons_append, List.append_assoc, List.cons.injEq,
              Token.operator.injEq] at h
            obtain ⟨rfl, hoperands⟩ := h
            -- The rest of the left operand is the right operand and what follows it.
            obtain ⟨rfl, hright⟩ := ihLeft hoperands
            obtain ⟨rfl, rfl⟩ := ihRight hright
            exact ⟨rfl, rfl⟩
  · rintro ⟨rfl, rfl⟩
    rfl

theorem toPrefix_inj {e e' : Expr} (h : e.toPrefix = e'.toPrefix) : e = e' := by
  have hrest : e.toPrefix ++ [] = e'.toPrefix ++ [] := by rw [h]
  exact (toPrefix_append_inj.mp hrest).1

theorem outcome_tokenize_toPrefix (e : Expr) :
    (tokenize (Token.joinText e.toPrefix)).outcome = .ok e.toPrefix :=
  outcome_tokenize_joinText e.toPrefix_ne_nil
    (forall_mem_toPrefix Token.legible_literal Token.legible_operator e)

theorem joinText_toPrefix_inj {e e' : Expr}
    (h : Token.joinText e.toPrefix = Token.joinText e'.toPrefix) : e = e' := by
  have htokens := outcome_tokenize_toPrefix e
  rw [h, outcome_tokenize_toPrefix] at htokens
  exact toPrefix_inj (Except.ok.inj htokens).symm

theorem joinText_toPrefix_ne_empty (e : Expr) : Token.joinText e.toPrefix ≠ "" := by
  intro h
  have htokens := outcome_tokenize_toPrefix e
  rw [h] at htokens
  cases htokens

theorem withoutParens_bracketed (e : Expr) :
    Text.withoutParens e.bracketed = Token.joinText e.toPrefix := by
  induction e with
  | literal value =>
      rw [bracketed, Value.withoutParens_decimal, toPrefix, Token.joinText_singleton]
      rfl
  | operation op left right ihLeft ihRight =>
      have hopen : Text.withoutParens "(" = "" := by rfl
      have hclose : Text.withoutParens ")" = "" := by rfl
      have hspace : Text.withoutParens " " = " " := by rfl
      have hoperands : left.toPrefix ++ right.toPrefix ≠ [] :=
        List.append_ne_nil_of_left_ne_nil left.toPrefix_ne_nil _
      have htokens : Token.joinText (operation op left right).toPrefix =
          op.text ++ " " ++
            (Token.joinText left.toPrefix ++ " " ++ Token.joinText right.toPrefix) := by
        rw [toPrefix, ← List.singleton_append,
          Token.joinText_append (List.cons_ne_nil _ _) hoperands,
          Token.joinText_append left.toPrefix_ne_nil right.toPrefix_ne_nil,
          Token.joinText_singleton]
        rfl
      rw [htokens, bracketed]
      simp only [Text.withoutParens_append, Operator.withoutParens_text, hopen, hclose, hspace,
        ihLeft, ihRight, String.append_assoc, String.empty_append, String.append_empty]

theorem bracketed_inj {e e' : Expr} : e.bracketed = e'.bracketed ↔ e = e' := by
  constructor
  · intro h
    apply joinText_toPrefix_inj
    rw [← withoutParens_bracketed, h, withoutParens_bracketed]
  · rintro rfl
    rfl

end Expr

theorem Tree.prefixText_inj {tree tree' : Tree} :
    tree.prefixText = tree'.prefixText ↔ tree.root = tree'.root := by
  rw [prefixText, prefixText]
  cases tree.root with
  | none =>
      cases tree'.root with
      | none => exact iff_of_true rfl rfl
      | some e' => exact iff_of_false (Expr.joinText_toPrefix_ne_empty e').symm nofun
  | some e =>
      cases tree'.root with
      | none => exact iff_of_false (Expr.joinText_toPrefix_ne_empty e) nofun
      | some e' =>
          rw [Option.some.injEq]
          refine ⟨Expr.joinText_toPrefix_inj, ?_⟩
          rintro rfl
          rfl

/-- Every notation that puts operators first identifies the expression: the prefix text of a tree,
which is empty only for an empty tree; the fully parenthesised text, which is the prefix text but
for its parentheses; and the tokens in prefix order, whatever tokens follow them. -/
theorem notations_identify_expression :
    (∀ tree tree' : Tree, tree.prefixText = tree'.prefixText ↔ tree.root = tree'.root) ∧
    (∀ e e' : Expr, e.bracketed = e'.bracketed ↔ e = e') ∧
    (∀ (e : Expr) (strategy : Strategy),
      Text.withoutParens e.bracketed = Tree.prefixText { root := some e, strategy }) ∧
    (∀ (e e' : Expr) (rest rest' : List Token),
      e.toPrefix ++ rest = e'.toPrefix ++ rest' ↔ e = e' ∧ rest = rest') := by
  refine ⟨fun _ _ => Tree.prefixText_inj, fun _ _ => Expr.bracketed_inj, ?_,
    fun _ _ _ _ => Expr.toPrefix_append_inj⟩
  intro e strategy
  exact e.withoutParens_bracketed

end InfixArithmetic
