import InfixArithmetic.Edges
import InfixArithmetic.Grammar
import InfixArithmetic.Proofs.BracketMatching

namespace InfixArithmetic

namespace Token

def startsOperand : Token → Bool
  | literal _ | unrecognized _ | openParen => true
  | operator _ | closeParen => false

def endsOperand : Token → Bool
  | literal _ | unrecognized _ | closeParen => true
  | operator _ | openParen => false

end Token

/-- The edges that an expression needs: the start and the end of an operand. -/
def HasOperandEdges (tokens : List Token) : Prop :=
  tokens.head?.any Token.startsOperand ∧ tokens.getLast?.any Token.endsOperand

theorem HasOperandEdges.join {first second : List Token} (h : HasOperandEdges first)
    (k : HasOperandEdges second) (between : List Token) :
    HasOperandEdges (first ++ (between ++ second)) := by
  obtain ⟨hstart, -⟩ := h
  obtain ⟨-, hend⟩ := k
  constructor
  · cases first with
    | nil => simp at hstart
    | cons token rest => simpa using hstart
  · rw [← List.append_assoc, List.getLast?_append]
    cases hlast : second.getLast? with
    | none => simp [hlast] at hend
    | some token => simpa [hlast] using hend

theorem HasOperandEdges.length_pos {level : List Token} (h : HasOperandEdges level) :
    0 < level.length := by
  apply List.length_pos_iff.mpr
  rintro rfl
  simpa using h.1

theorem HasOperandEdges.succ_lt_length_of_operator {level : List Token} {position : Nat}
    {op : Operator} (h : HasOperandEdges level)
    (htoken : level[position]? = some (.operator op)) : position + 1 < level.length := by
  obtain ⟨hlt, -⟩ := List.getElem?_eq_some_iff.mp htoken
  obtain heq | hlt := Nat.eq_or_lt_of_le hlt
  · have hlast : level.getLast? = some (.operator op) := by
      rw [List.getLast?_eq_getElem?, ← heq]
      exact htoken
    have hend := h.2
    rw [hlast] at hend
    cases hend
  · exact hlt

theorem checkEdges_eq_ok_iff {level : List Token} :
    checkEdges level = .ok () ↔ HasOperandEdges level := by
  unfold checkEdges HasOperandEdges
  cases level with
  | nil => simp
  | cons first rest =>
      rw [List.getLast?_cons, List.head?_cons]
      cases first <;> cases rest.getLast?.getD _ <;>
        simp [Token.startsOperand, Token.endsOperand]

namespace Grammar

mutual

theorem Expression.hasOperandEdges {tokens : List Token} {e : Expr} :
    Expression tokens e → HasOperandEdges tokens
  | .term h => h.hasOperandEdges
  | .sum _ h k => h.hasOperandEdges.join k.hasOperandEdges [_]

theorem Term.hasOperandEdges {tokens : List Token} {e : Expr} :
    Term tokens e → HasOperandEdges tokens
  | .factor h => h.hasOperandEdges
  | .product _ h k => h.hasOperandEdges.join k.hasOperandEdges [_]

theorem Factor.hasOperandEdges {tokens : List Token} {e : Expr} :
    Factor tokens e → HasOperandEdges tokens
  | .literal _ => ⟨rfl, rfl⟩
  | .group _ => ⟨rfl, by rw [List.getLast?_concat]; rfl⟩

end

mutual

theorem Expression.balanced {tokens : List Token} {e : Expr} :
    Expression tokens e → Bracket.Balanced tokens
  | .term h => h.balanced
  | .sum _ h k => h.balanced.append ((Bracket.balanced_singleton rfl).append k.balanced)

theorem Term.balanced {tokens : List Token} {e : Expr} :
    Term tokens e → Bracket.Balanced tokens
  | .factor h => h.balanced
  | .product _ h k => h.balanced.append ((Bracket.balanced_singleton rfl).append k.balanced)

theorem Factor.balanced {tokens : List Token} {e : Expr} :
    Factor tokens e → Bracket.Balanced tokens
  | .literal _ => Bracket.balanced_singleton rfl
  | .group h => h.balanced.group

end

theorem Factor.exists_getLast? {tokens : List Token} {e : Expr} (h : Factor tokens e) :
    ∃ last, tokens.getLast? = some last ∧
      (last = .closeParen ∨ ∃ value, last = .literal value) := by
  cases h with
  | literal value => exact ⟨.literal value, rfl, .inr ⟨value, rfl⟩⟩
  | group _ => exact ⟨.closeParen, List.getLast?_concat, .inl rfl⟩

theorem Expression.checkEdges {tokens : List Token} {e : Expr} (h : Expression tokens e) :
    checkEdges tokens = .ok () :=
  checkEdges_eq_ok_iff.mpr h.hasOperandEdges

theorem Expression.ne_nil {tokens : List Token} {e : Expr} (h : Expression tokens e) :
    tokens ≠ [] :=
  List.length_pos_iff.mp h.hasOperandEdges.length_pos

end Grammar

end InfixArithmetic
