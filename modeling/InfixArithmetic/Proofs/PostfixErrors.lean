import InfixArithmetic.Proofs.PostfixBuilding
import Mathlib.Data.List.Induction

namespace InfixArithmetic

namespace Token

def isLiteral : Token → Bool
  | literal _ => true
  | _ => false

/-- By how many the literals outnumber the operators. -/
def surplus (tokens : List Token) : Int :=
  tokens.countP isLiteral - tokens.countP isOperator

theorem surplus_append (first second : List Token) :
    surplus (first ++ second) = surplus first + surplus second := by
  rw [surplus, List.countP_append, List.countP_append, surplus, surplus]
  omega

theorem surplus_concat_literal (tokens : List Token) (value : Value) :
    surplus (tokens ++ [literal value]) = surplus tokens + 1 := by
  rw [surplus_append]
  rfl

theorem surplus_concat_operator (tokens : List Token) (op : Operator) :
    surplus (tokens ++ [operator op]) = surplus tokens - 1 := by
  rw [surplus_append]
  rfl

/-- In postfix order the token cannot follow tokens with this surplus. -/
def Offends (available : Int) : Token → Prop
  | literal _ => False
  | operator _ => available < 2
  | _ => True

instance (available : Int) : DecidablePred (Offends available)
  | literal _ => inferInstanceAs (Decidable False)
  | operator _ => inferInstanceAs (Decidable (available < 2))
  | openParen | closeParen | unrecognized _ => inferInstanceAs (Decidable True)

/-- What is said of a token that offends. -/
def offence (available : Nat) : Token → ParseError
  | operator op => .stackUnderflow op available
  | unrecognized text => .illFormed (.invalidFactor text)
  | token => .illFormed (.misplacedParenthesis token)

theorem offence_ne_malformedResult (token : Token) (available roots : Nat) :
    token.offence available ≠ .malformedResult roots := by
  cases token <;> simp [offence]

end Token

open Token

/-- No token offends after the tokens before it. -/
def Inoffensive (tokens : List Token) : Prop :=
  ∀ before token, before ++ [token] <+: tokens → ¬token.Offends (surplus before)

/-- The tokens `before` are followed by the first token that offends. -/
structure FirstOffence (tokens before : List Token) (token : Token) : Prop where
  isPrefix : before ++ [token] <+: tokens
  offends : token.Offends (surplus before)
  inoffensive : Inoffensive before

variable {tokens before : List Token} {token : Token}

theorem inoffensive_nil : Inoffensive [] := by
  intro before token h
  have hnil := List.prefix_nil.mp h
  simp at hnil

theorem inoffensive_concat_iff :
    Inoffensive (tokens ++ [token]) ↔ Inoffensive tokens ∧ ¬token.Offends (surplus tokens) := by
  constructor
  · intro h
    refine ⟨?_, h tokens token (List.prefix_refl _)⟩
    intro before token' hpart
    exact h before token' (hpart.trans (List.prefix_append _ _))
  · rintro ⟨htokens, htoken⟩ before token' hpart
    rcases List.prefix_concat_iff.mp hpart with heq | hpart
    · obtain ⟨rfl, htoken'⟩ := List.append_inj' heq rfl
      cases htoken'
      exact htoken
    · exact htokens before token' hpart

theorem inoffensive_or_exists_firstOffence (tokens : List Token) :
    Inoffensive tokens ∨ ∃ before token, FirstOffence tokens before token := by
  induction tokens using List.reverseRecOn with
  | nil => exact .inl inoffensive_nil
  | append_singleton tokens token ih =>
      rcases ih with htokens | ⟨before, token', hfirst⟩
      · by_cases htoken : token.Offends (surplus tokens)
        · exact .inr ⟨tokens, token, List.prefix_refl _, htoken, htokens⟩
        · exact .inl (inoffensive_concat_iff.mpr ⟨htokens, htoken⟩)
      · have hpart := hfirst.isPrefix.trans (List.prefix_append tokens [token])
        exact .inr ⟨before, token', hpart, hfirst.offends, hfirst.inoffensive⟩

namespace Expr

theorem surplus_toPostfix (e : Expr) : surplus e.toPostfix = 1 := by
  induction e with
  | literal value => rfl
  | operation op left right ihLeft ihRight =>
      rw [toPostfix, surplus_concat_operator, surplus_append, ihLeft, ihRight]
      rfl

theorem surplus_stackTokens (stack : List Expr) : surplus (stackTokens stack) = stack.length := by
  induction stack with
  | nil => rfl
  | cons e stack ih =>
      rw [stackTokens_cons, surplus_append, ih, surplus_toPostfix, List.length_cons]
      rfl

theorem surplus_eq_length {stack : List Expr} (h : tokens.foldlM push [] = .ok stack) :
    surplus tokens = stack.length := by
  have htokens := stackTokens_foldlM_push h
  rw [← surplus_stackTokens, htokens]
  rfl

theorem push_of_offends {stack : List Expr} (h : token.Offends stack.length) :
    push stack token = .error (token.offence stack.length) := by
  cases token with
  | literal value => exact absurd h id
  | operator op =>
      match stack, h with
      | [], _ => rfl
      | [_], _ => rfl
      | _ :: _ :: rest, h =>
          simp only [Offends, List.length_cons] at h
          omega
  | _ => rfl

theorem exists_push_of_not_offends {stack : List Expr} (h : ¬token.Offends stack.length) :
    ∃ stack', push stack token = .ok stack' := by
  cases token with
  | literal value => exact ⟨_, rfl⟩
  | operator op =>
      match stack, h with
      | right :: left :: rest, _ => exact ⟨_, rfl⟩
      | [_], h => simp [Offends] at h
      | [], h => simp [Offends] at h
  | _ => exact absurd trivial h

theorem foldlM_push_concat {stack : List Expr} (h : tokens.foldlM push [] = .ok stack)
    (token : Token) : (tokens ++ [token]).foldlM push [] = push stack token := by
  rw [List.foldlM_append, h]
  exact bind_pure (push stack token)

theorem exists_stack_of_inoffensive (h : Inoffensive tokens) :
    ∃ stack, tokens.foldlM push [] = .ok stack := by
  induction tokens using List.reverseRecOn with
  | nil => exact ⟨[], rfl⟩
  | append_singleton tokens token ih =>
      obtain ⟨htokens, htoken⟩ := inoffensive_concat_iff.mp h
      obtain ⟨stack, hstack⟩ := ih htokens
      rw [surplus_eq_length hstack] at htoken
      rw [foldlM_push_concat hstack]
      exact exists_push_of_not_offends htoken

theorem foldlM_push_of_firstOffence (h : FirstOffence tokens before token) :
    ∃ available : Nat, surplus before = available ∧
      tokens.foldlM push [] = .error (token.offence available) := by
  obtain ⟨rest, rfl⟩ := h.isPrefix
  obtain ⟨stack, hstack⟩ := exists_stack_of_inoffensive h.inoffensive
  have hsurplus := surplus_eq_length hstack
  have hoffends := h.offends
  rw [hsurplus] at hoffends
  refine ⟨stack.length, hsurplus, ?_⟩
  rw [List.foldlM_append, foldlM_push_concat hstack, push_of_offends hoffends]
  rfl

theorem inoffensive_iff_exists_stack :
    Inoffensive tokens ↔ ∃ stack, tokens.foldlM push [] = .ok stack := by
  refine ⟨exists_stack_of_inoffensive, ?_⟩
  rintro ⟨stack, hstack⟩
  rcases inoffensive_or_exists_firstOffence tokens with htokens | ⟨before, token, hfirst⟩
  · exact htokens
  · obtain ⟨available, -, herror⟩ := foldlM_push_of_firstOffence hfirst
    rw [hstack] at herror
    cases herror

theorem surplus_pos_of_inoffensive (h : Inoffensive tokens) (hnonempty : tokens ≠ []) :
    0 < surplus tokens := by
  rcases List.eq_nil_or_concat tokens with rfl | ⟨before, token, rfl⟩
  · exact absurd rfl hnonempty
  · rw [List.concat_eq_append] at h ⊢
    obtain ⟨hbefore, htoken⟩ := inoffensive_concat_iff.mp h
    obtain ⟨stack, hstack⟩ := exists_stack_of_inoffensive hbefore
    have hsurplus := surplus_eq_length hstack
    cases token with
    | literal value =>
        rw [surplus_concat_literal]
        omega
    | operator op =>
        rw [surplus_concat_operator]
        simp only [Offends] at htoken
        omega
    | _ => exact absurd trivial htoken

theorem ofPostfix_of_firstOffence (h : FirstOffence tokens before token) :
    ∃ available : Nat, surplus before = available ∧
      ofPostfix tokens = .error (token.offence available) := by
  obtain ⟨available, hsurplus, herror⟩ := foldlM_push_of_firstOffence h
  refine ⟨available, hsurplus, ?_⟩
  rw [ofPostfix, herror]
  rfl

theorem ofPostfix_of_inoffensive (h : Inoffensive tokens) :
    ∃ roots : Nat, surplus tokens = roots ∧
      (roots = 1 → ∃ e, ofPostfix tokens = .ok e) ∧
      (roots ≠ 1 → ofPostfix tokens = .error (.malformedResult roots)) := by
  obtain ⟨stack, hstack⟩ := exists_stack_of_inoffensive h
  refine ⟨stack.length, surplus_eq_length hstack, ?_, ?_⟩
  · intro hlength
    obtain ⟨root, rfl⟩ := List.length_eq_one_iff.mp hlength
    refine ⟨root, ?_⟩
    rw [ofPostfix, hstack]
    rfl
  · intro hlength
    rw [ofPostfix, hstack]
    rcases stack with _ | ⟨root, _ | ⟨root', rest⟩⟩
    · rfl
    · exact absurd rfl hlength
    · rfl

theorem ofPostfix_eq_malformedResult_zero_iff :
    ofPostfix tokens = .error (.malformedResult 0) ↔ tokens = [] := by
  constructor
  · intro h
    rcases inoffensive_or_exists_firstOffence tokens with htokens | ⟨before, token, hfirst⟩
    · obtain ⟨roots, hsurplus, hone, hother⟩ := ofPostfix_of_inoffensive htokens
      by_contra hnonempty
      have hpos := surplus_pos_of_inoffensive htokens hnonempty
      by_cases hroots : roots = 1
      · obtain ⟨e, he⟩ := hone hroots
        rw [he] at h
        cases h
      · rw [hother hroots] at h
        cases h
        omega
    · obtain ⟨available, -, herror⟩ := ofPostfix_of_firstOffence hfirst
      rw [herror] at h
      exact absurd (Except.error.inj h) (offence_ne_malformedResult token available 0)
  · rintro rfl
    rfl

/-- The error is that of the first token that offends, with the surplus before it. If no token
offends, the tokens denote as many expressions as their surplus says, and there must be just one;
there are none only if there are no tokens. -/
theorem ofPostfix_fails_at_first_offence (tokens : List Token) :
    (∀ before token, FirstOffence tokens before token →
      ∃ available : Nat, surplus before = available ∧
        ofPostfix tokens = .error (token.offence available)) ∧
    (Inoffensive tokens →
      ∃ roots : Nat, surplus tokens = roots ∧
        (roots = 1 → ∃ e, ofPostfix tokens = .ok e) ∧
        (roots ≠ 1 → ofPostfix tokens = .error (.malformedResult roots))) ∧
    (ofPostfix tokens = .error (.malformedResult 0) ↔ tokens = []) :=
  ⟨fun _ _ => ofPostfix_of_firstOffence, ofPostfix_of_inoffensive,
    ofPostfix_eq_malformedResult_zero_iff⟩

theorem ofPostfix_fails_at_first_offence_of_product :
    let one : Token := .literal { toInt := 1 }
    let sum : List Token := [one, one, .operator .add]
    let faulty : List Token := sum ++ [.operator .multiply, .openParen]
    let two : List Token := one :: sum
    (FirstOffence faulty sum (.operator .multiply) ∧
      ofPostfix faulty = .error (.stackUnderflow .multiply 1)) ∧
    (Inoffensive two ∧ ofPostfix two = .error (.malformedResult 2)) := by
  intro one sum faulty two
  have hsum : Inoffensive sum := inoffensive_iff_exists_stack.mpr ⟨_, rfl⟩
  have hfirst : FirstOffence faulty sum (.operator .multiply) :=
    ⟨⟨[.openParen], rfl⟩, by decide, hsum⟩
  have htwo : Inoffensive two := inoffensive_iff_exists_stack.mpr ⟨_, rfl⟩
  obtain ⟨available, havailable, hunderflow⟩ :=
    (ofPostfix_fails_at_first_offence faulty).1 sum _ hfirst
  obtain ⟨roots, hroots, -, hmalformed⟩ := (ofPostfix_fails_at_first_offence two).2.1 htwo
  have hone : surplus sum = 1 := by rfl
  have hsurplus : surplus two = 2 := by rfl
  obtain rfl : available = 1 := by omega
  obtain rfl : roots = 2 := by omega
  exact ⟨⟨hfirst, hunderflow⟩, htwo, hmalformed (by decide)⟩

end Expr

end InfixArithmetic
