import InfixArithmetic.Proofs.EarliestError
import Mathlib.Data.List.Chain

namespace InfixArithmetic

open Grammar Descent Yard

/-- After an operand or a closing parenthesis comes an operator or a closing parenthesis, after an
operator or an opening parenthesis an operand or an opening parenthesis. -/
def Token.mayPrecede (token next : Token) : Bool :=
  token.endsOperand && !next.startsOperand || !token.endsOperand && next.startsOperand

/-- Neither an edge nor a pair of neighbours is at fault. Unrecognized tokens count as operands. -/
structure LocallyLegal (tokens : List Token) : Prop where
  edges : HasOperandEdges tokens
  adjacent : tokens.IsChain fun token next => token.mayPrecede next

/-- The only defects that a locally legal sequence can have. -/
inductive HiddenDefect (tokens : List Token) : ParseError → Prop where
  | unrecognized {text : String} :
      .unrecognized text ∈ tokens → HiddenDefect tokens (.illFormed (.invalidFactor text))
  | unbalanced :
      ¬Bracket.Balanced tokens → HiddenDefect tokens (.illFormed .unmatchedParenthesis)

theorem Token.mayPrecede_eq_false_of_clashes {token next : Token} (h : token.clashes next) :
    token.mayPrecede next = false := by
  cases token <;> cases next <;>
    simp_all [Token.clashes, Token.mayPrecede, Token.endsOperand, Token.startsOperand]

namespace LocallyLegal

variable {tokens : List Token}

theorem ne_nil (h : LocallyLegal tokens) : tokens ≠ [] := by
  rintro rfl
  have hstart := h.edges.1
  cases hstart

theorem mayPrecede_of_infix {token next : Token} (h : LocallyLegal tokens)
    (k : [token, next] <:+: tokens) : token.mayPrecede next := by
  have hpair := h.adjacent.infix k
  simpa using hpair

theorem not_infix_of_clashes {token next : Token} (h : LocallyLegal tokens)
    (k : token.clashes next) : ¬[token, next] <:+: tokens := by
  intro hpair
  have hfits := h.mayPrecede_of_infix hpair
  rw [Token.mayPrecede_eq_false_of_clashes k] at hfits
  cases hfits

theorem innerEdgesFree (h : LocallyLegal tokens) : InnerEdgesFree tokens :=
  fun _ => ⟨h.not_infix_of_clashes rfl, h.not_infix_of_clashes rfl⟩

theorem hiddenDefect_of_justified {strategy : Strategy} {error : ParseError}
    (h : LocallyLegal tokens) (hjustified : error.Justified strategy tokens) :
    HiddenDefect tokens error := by
  obtain ⟨hstart, hend⟩ := h.edges
  cases error with
  | emptyInput => exact absurd hjustified h.ne_nil
  | stackUnderflow op available => cases hjustified
  | malformedResult roots => cases hjustified
  | illFormed error =>
      cases error with
      | danglingOperator op =>
          rcases hjustified with hhead | hlast | ⟨-, hopen | hclose⟩
          · rw [hhead] at hstart
            cases hstart
          · rw [hlast] at hend
            cases hend
          · exact absurd hopen (h.innerEdgesFree op).1
          · exact absurd hclose (h.innerEdgesFree op).2
      | misplacedParenthesis token =>
          rcases hjustified with ⟨rfl, hhead⟩ | ⟨rfl, hlast⟩
          · rw [hhead] at hstart
            cases hstart
          · rw [hlast] at hend
            cases hend
      | invalidFactor text => exact .unrecognized hjustified
      | unmatchedParenthesis => exact .unbalanced hjustified
      | unexpectedToken token =>
          obtain ⟨before, hclash, hpair⟩ := hjustified
          exact absurd hpair (h.not_infix_of_clashes hclash)
      | emptyParentheses => exact absurd hjustified (h.not_infix_of_clashes rfl)

theorem hiddenDefect_of_outcome_eq_error {strategy : Strategy} {error : ParseError}
    (h : LocallyLegal tokens) (herror : (strategy.parse tokens).outcome = .error error) :
    HiddenDefect tokens error := by
  rw [Strategy.outcome_parse_of_ne_nil strategy h.ne_nil] at herror
  exact h.hiddenDefect_of_justified (Strategy.justified_of_outcome_read_eq_error h.ne_nil herror)

end LocallyLegal

theorem unrecognized_of_refusal_eq {last? : Option Token} {token : Token} {text : String}
    (h : refusal last? token = .invalidFactor text) : token = .unrecognized text := by
  cases token with
  | unrecognized text' =>
      cases h
      rfl
  | closeParen =>
      rcases last? with _ | last
      · cases h
      · cases last <;> cases h
  | _ => cases h

theorem Yard.feedAll_eq_invalidFactor_iff {tokens : List Token} {text : String} :
    feedAll {} tokens = .error (.invalidFactor text) ↔
      ∃ before rest, tokens = before ++ .unrecognized text :: rest ∧ Viable before := by
  constructor
  · intro h
    obtain ⟨before, token, rest, yard, rfl, hbefore, hrefused⟩ := exists_refused h
    have hrefusal := (after_of_feedAll hbefore).error_eq_refusal hrefused
    rw [unrecognized_of_refusal_eq hrefusal.symm]
    exact ⟨before, rest, rfl, viable_iff_feedAll.mpr ⟨yard, hbefore⟩⟩
  · rintro ⟨before, rest, rfl, hviable⟩
    obtain ⟨yard, hbefore⟩ := viable_iff_feedAll.mp hviable
    rw [feedAll_append_of_ok hbefore, feedAll_cons, feed_unrecognized]
    rfl

namespace LocallyLegal

variable {tokens before rest : List Token} {text : String}

theorem outcome_parse_shuntingYard_of_error {error : SyntaxError} (h : LocallyLegal tokens)
    (hfed : feedAll {} tokens = .error error) :
    (Strategy.shuntingYard.parse tokens).outcome = .error (.illFormed error) := by
  rw [Strategy.outcome_parse_of_ne_nil _ h.ne_nil, Strategy.outcome_read_shuntingYard,
    checkEdges_eq_ok_iff.mpr h.edges, outcome_postfixOrder_of_error hfed]
  rfl

theorem feedAll_eq_invalidFactor (h : LocallyLegal (before ++ .unrecognized text :: rest))
    (hbalanced : Bracket.Balanced (before ++ .unrecognized text :: rest))
    (hbefore : ∀ other, .unrecognized other ∉ before) :
    feedAll {} (before ++ .unrecognized text :: rest) = .error (.invalidFactor text) := by
  rw [feedAll_eq_invalidFactor_iff]
  refine ⟨before, rest, rfl, ?_⟩
  rw [viable_iff_feedAll]
  cases hfed : feedAll {} before with
  | ok yard => exact ⟨yard, rfl⟩
  | error error =>
      exfalso
      have hwhole : feedAll {} (before ++ .unrecognized text :: rest) = .error error := by
        rw [feedAll_append, hfed]
        rfl
      have hparse := h.outcome_parse_shuntingYard_of_error hwhole
      cases h.hiddenDefect_of_outcome_eq_error hparse with
      | unrecognized _ =>
          obtain ⟨first, second, rfl, -⟩ := feedAll_eq_invalidFactor_iff.mp hfed
          exact hbefore _ List.mem_append_cons_self
      | unbalanced hunbalanced => exact hunbalanced hbalanced

theorem outcome_parse_eq (h : LocallyLegal tokens) (hbalanced : Bracket.Balanced tokens)
    (strategy : Strategy) :
    (strategy.parse tokens).outcome = (Strategy.shuntingYard.parse tokens).outcome := by
  cases strategy with
  | shuntingYard => rfl
  | recursiveDescent =>
      rw [Strategy.outcome_parse_of_ne_nil _ h.ne_nil, Strategy.outcome_parse_of_ne_nil _ h.ne_nil]
      exact Strategy.outcome_read_eq_of_hasOperandEdges hbalanced.allClosed h.innerEdgesFree h.edges

end LocallyLegal

/-- What either strategy makes of a locally legal sequence. If the parentheses balance, it is read
unless a token is unrecognized, of which the leftmost is named; if they do not and all tokens are
recognized, they are what the error is about. -/
theorem Strategy.parse_of_locallyLegal {tokens : List Token} (h : LocallyLegal tokens)
    (strategy : Strategy) :
    (Bracket.Balanced tokens → (∀ text, .unrecognized text ∉ tokens) →
      ∃ e, (strategy.parse tokens).outcome = .ok e) ∧
    (Bracket.Balanced tokens → ∀ before text rest, tokens = before ++ .unrecognized text :: rest →
      (∀ other, .unrecognized other ∉ before) →
      (strategy.parse tokens).outcome = .error (.illFormed (.invalidFactor text))) ∧
    (¬Bracket.Balanced tokens → (∀ text, .unrecognized text ∉ tokens) →
      (strategy.parse tokens).outcome = .error (.illFormed .unmatchedParenthesis)) := by
  refine ⟨?_, ?_, ?_⟩
  · intro hbalanced hrecognized
    cases hparse : (strategy.parse tokens).outcome with
    | ok e => exact ⟨e, rfl⟩
    | error error =>
        cases h.hiddenDefect_of_outcome_eq_error hparse with
        | unrecognized hmem => exact absurd hmem (hrecognized _)
        | unbalanced hunbalanced => exact absurd hbalanced hunbalanced
  · rintro hbalanced before text rest rfl hbefore
    rw [h.outcome_parse_eq hbalanced]
    exact h.outcome_parse_shuntingYard_of_error (h.feedAll_eq_invalidFactor hbalanced hbefore)
  · intro hunbalanced hrecognized
    cases hparse : (strategy.parse tokens).outcome with
    | ok e => exact absurd (outcome_parse_eq_ok_iff.mp hparse).balanced hunbalanced
    | error error =>
        cases h.hiddenDefect_of_outcome_eq_error hparse with
        | unrecognized hmem => exact absurd hmem (hrecognized _)
        | unbalanced _ => rfl

theorem Strategy.parse_of_locallyLegal_product_of_group :
    let product (left right : Token) : List Token :=
      [.openParen, .literal 0, .operator .add, left, .closeParen, .operator .multiply, right]
    let sound := product (.literal 0) (.literal 0)
    let illegible := product (.unrecognized "x") (.unrecognized "y")
    let leftOpen := .openParen :: sound
    ((LocallyLegal sound ∧ Bracket.Balanced sound ∧ ∀ text, .unrecognized text ∉ sound) ∧
      ∃ e, (shuntingYard.parse sound).outcome = .ok e) ∧
    ((LocallyLegal illegible ∧ Bracket.Balanced illegible) ∧
      (recursiveDescent.parse illegible).outcome = .error (.illFormed (.invalidFactor "x"))) ∧
    (LocallyLegal leftOpen ∧ ¬Bracket.Balanced leftOpen ∧ ∀ text, .unrecognized text ∉ leftOpen) ∧
      (recursiveDescent.parse leftOpen).outcome = .error (.illFormed .unmatchedParenthesis) := by
  intro product sound illegible leftOpen
  have hsound : LocallyLegal sound := ⟨⟨rfl, rfl⟩, by decide⟩
  have hillegible : LocallyLegal illegible := ⟨⟨rfl, rfl⟩, by decide⟩
  have hleftOpen : LocallyLegal leftOpen := ⟨⟨rfl, rfl⟩, by decide⟩
  have hbalanced : Bracket.Balanced sound := Bracket.balanced_iff_depthThrough.mpr rfl
  have hbalanced' : Bracket.Balanced illegible := Bracket.balanced_iff_depthThrough.mpr rfl
  have hunbalanced : ¬Bracket.Balanced leftOpen := by
    rw [Bracket.balanced_iff_depthThrough]
    decide
  have hrecognized : ∀ text, .unrecognized text ∉ sound := by simp [sound, product]
  have hrecognized' : ∀ text, .unrecognized text ∉ leftOpen := by simp [leftOpen, sound, product]
  refine ⟨⟨⟨hsound, hbalanced, hrecognized⟩, ?_⟩, ⟨⟨hillegible, hbalanced'⟩, ?_⟩,
    ⟨hleftOpen, hunbalanced, hrecognized'⟩, ?_⟩
  · exact (parse_of_locallyLegal hsound shuntingYard).1 hbalanced hrecognized
  · exact (parse_of_locallyLegal hillegible recursiveDescent).2.1 hbalanced'
      [.openParen, .literal 0, .operator .add] "x" _ rfl (by simp)
  · exact (parse_of_locallyLegal hleftOpen recursiveDescent).2.2 hunbalanced hrecognized'

end InfixArithmetic
