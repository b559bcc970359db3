import InfixArithmetic.Proofs.YardInvariant
import Mathlib.Data.List.Basic
import Mathlib.Data.List.TakeWhile

namespace InfixArithmetic

open Descent

theorem Operator.symbol_inj {op op' : Operator} : op.symbol = op'.symbol ↔ op = op' := by
  constructor
  · intro h
    have hread := ofSymbol?_symbol op
    rw [h, ofSymbol?_symbol] at hread
    exact (Option.some.inj hread).symm
  · rintro rfl
    rfl

/-- An operator that goes to the output, and the operator that makes it go. Without the latter it is
a closing parenthesis. -/
structure Move where
  mover : Option Operator
  moved : Operator
deriving DecidableEq, Repr

namespace Move

def event : Move → Event
  | ⟨none, moved⟩ => .movedByClose (.operator moved)
  | ⟨some mover, moved⟩ => .movedByOperator mover (.operator moved)

def moverSymbol (move : Move) : Char :=
  move.mover.elim ')' Operator.symbol

/-- What the log says of a move. -/
def message (move : Move) : String :=
  "'" ++ move.moverSymbol.toString ++ "' moves " ++ move.moved.text ++ " to output"

theorem level_event (move : Move) : move.event.level = .trace := by
  rcases move with ⟨_ | mover, moved⟩ <;> rfl

theorem message_event (move : Move) : move.event.message = move.message := by
  rcases move with ⟨_ | mover, moved⟩ <;> rfl

theorem moverSymbol_inj {move move' : Move} :
    move.moverSymbol = move'.moverSymbol ↔ move.mover = move'.mover := by
  have hclose : ∀ op : Operator, op.symbol ≠ ')' := by
    intro op
    cases op <;> decide
  rcases move with ⟨_ | mover, moved⟩ <;> rcases move' with ⟨_ | mover', moved'⟩
  · exact iff_of_true rfl rfl
  · exact iff_of_false (hclose mover').symm nofun
  · exact iff_of_false (hclose mover) nofun
  · rw [Option.some.injEq]
    exact Operator.symbol_inj

theorem message_injective : Function.Injective message := by
  intro move move' h
  have hlist := congrArg String.toList h
  have htext : ∀ move : Move, move.message.toList = '\'' :: move.moverSymbol ::
      ("' moves ".toList ++ move.moved.symbol :: " to output".toList) := by
    intro move
    simp [message, Operator.text]
  rw [htext, htext, List.cons.injEq, List.cons.injEq, List.append_right_inj, List.cons.injEq,
    moverSymbol_inj, Operator.symbol_inj] at hlist
  obtain ⟨-, hmover, hmoved, -⟩ := hlist
  rcases move with ⟨mover, moved⟩
  rcases move' with ⟨mover', moved'⟩
  cases hmover
  cases hmoved
  rfl

end Move

namespace Token

def operators (tokens : List Token) : List Operator :=
  tokens.filterMap operator?

theorem operators_append (first second : List Token) :
    operators (first ++ second) = operators first ++ operators second :=
  List.filterMap_append

theorem operators_map_operator (ops : List Operator) : operators (ops.map operator) = ops := by
  rw [operators, List.filterMap_map]
  exact List.filterMap_some

theorem exists_eq_map_operator {tokens : List Token}
    (h : ∀ token ∈ tokens, token.isOperator = true) :
    ∃ ops : List Operator, tokens = ops.map operator := by
  induction tokens with
  | nil => exact ⟨[], rfl⟩
  | cons token rest ih =>
      obtain ⟨htoken, hrest⟩ := List.forall_mem_cons.mp h
      obtain ⟨ops, rfl⟩ := ih hrest
      cases token with
      | operator op => exact ⟨op :: ops, rfl⟩
      | _ => cases htoken

end Token

open Token

namespace Yard

variable {yard yard' : Yard} {events : List Event}

/-- The log of what leads from one yard to another accounts for the operators that have gone to the
output in between. -/
def Accounts (yard : Yard) (events : List Event) (yard' : Yard) : Prop :=
  ∃ moves : List Move, events = moves.map Move.event ∧
    operators yard'.output.reverse = operators yard.output.reverse ++ moves.map Move.moved

theorem Accounts.nil (h : operators yard'.output.reverse = operators yard.output.reverse) :
    Accounts yard [] yard' :=
  ⟨[], rfl, by rw [h, List.map_nil, List.append_nil]⟩

theorem Accounts.append {yard'' : Yard} {later : List Event} (h : Accounts yard events yard')
    (hlater : Accounts yard' later yard'') : Accounts yard (events ++ later) yard'' := by
  obtain ⟨moves, rfl, houtput⟩ := h
  obtain ⟨moves', rfl, houtput'⟩ := hlater
  refine ⟨moves ++ moves', List.map_append.symm, ?_⟩
  rw [houtput', houtput, List.map_append, List.append_assoc]

theorem Accounts.of_moved {moved : List Token} (mover : Option Operator)
    (hmoved : ∀ token ∈ moved, token.isOperator = true)
    (houtput : yard'.output = moved.reverse ++ yard.output) :
    Accounts yard (moved.map (mover.elim Event.movedByClose Event.movedByOperator)) yard' := by
  obtain ⟨ops, rfl⟩ := exists_eq_map_operator hmoved
  refine ⟨ops.map fun op => ⟨mover, op⟩, ?_, ?_⟩
  · rw [List.map_map, List.map_map]
    cases mover <;> rfl
  · rw [houtput, List.reverse_append, List.reverse_reverse, operators_append,
      operators_map_operator, List.map_map]
    simp only [Function.comp_def, List.map_id']

theorem accounts_of_makeWay {op : Operator} (h : makeWay op yard = ⟨events, .ok yard'⟩) :
    Accounts yard events yard' := by
  have hoperators : ∀ token ∈ yard.stack.takeWhile (yields op), token.isOperator = true := by
    intro token htoken
    have hyields := List.mem_takeWhile_imp htoken
    cases token with
    | operator other => rfl
    | _ => cases hyields
  have hlog : makeWay op yard = ⟨(yard.stack.takeWhile (yields op)).map (.movedByOperator op) ++ [],
      .ok { yard with
        stack := yard.stack.dropWhile (yields op)
        output := (yard.stack.takeWhile (yields op)).reverse ++ yard.output }⟩ := rfl
  rw [hlog, List.append_nil] at h
  cases h
  exact .of_moved (some op) hoperators rfl

theorem accounts_of_closeGroup
    (hstack : ∀ token ∈ yard.stack, token.isOperator = true ∨ token = .openParen)
    (h : yard.closeGroup = ⟨events, .ok yard'⟩) : Accounts yard events yard' := by
  have hoperators : ∀ token ∈ yard.stack.takeWhile (· ≠ .openParen), token.isOperator = true := by
    intro token htoken
    have hopen : token ≠ .openParen := by simpa using List.mem_takeWhile_imp htoken
    exact (hstack token (List.takeWhile_subset _ htoken)).resolve_right hopen
  rw [closeGroup, Traced.bind_eq_mk_ok_iff] at h
  obtain ⟨first, _, second, hlog, hrest, rfl⟩ := h
  cases hlog
  cases hbelow : yard.stack.dropWhile (· ≠ .openParen) with
  | nil =>
      rw [hbelow] at hrest
      cases hrest
  | cons opening rest =>
      rw [hbelow] at hrest
      cases hrest
      rw [List.append_nil]
      exact .of_moved none hoperators rfl

/-- Whatever token is taken in, the operators that go to the output are those that the log names. -/
theorem accounts_of_feed {token : Token}
    (hstack : ∀ token ∈ yard.stack, token.isOperator = true ∨ token = .openParen)
    (h : yard.feed token = ⟨events, .ok yard'⟩) : Accounts yard events yard' := by
  rcases yard with ⟨stack, output, _ | _⟩
  -- No operand is due.
  · cases token with
    | operator op =>
        have hfeed : feed ⟨stack, output, false⟩ (.operator op) =
            makeWay op ⟨stack, output, false⟩ >>= fun yard =>
              pure { yard with stack := .operator op :: yard.stack, expectOperand := true } := rfl
        rw [hfeed, Traced.bind_eq_mk_ok_iff] at h
        obtain ⟨first, middle, second, hmakeWay, hrest, rfl⟩ := h
        cases hrest
        exact (accounts_of_makeWay hmakeWay).append (.nil rfl)
    | closeParen => exact accounts_of_closeGroup hstack h
    | _ => cases h
  -- An operand is due.
  · cases token with
    | literal value =>
        cases h
        apply Accounts.nil
        rw [List.reverse_cons, operators_append]
        exact List.append_nil _
    | openParen =>
        cases h
        exact .nil rfl
    | closeParen =>
        have hfeed : feed ⟨stack, output, true⟩ .closeParen =
            if stack.head? = some .openParen then Traced.fail .emptyParentheses
            else Traced.fail (.unexpected .closeParen) := rfl
        rw [hfeed] at h
        split at h
        · cases h
        · cases h
    | _ => cases h

theorem accounts_of_foldlM_feed {before tokens : List Token} (hafter : After before yard)
    (h : tokens.foldlM feed yard = ⟨events, .ok yard'⟩) : Accounts yard events yard' := by
  induction tokens generalizing before yard events with
  | nil =>
      cases h
      exact .nil rfl
  | cons token rest ih =>
      rw [List.foldlM_cons, Traced.bind_eq_mk_ok_iff] at h
      obtain ⟨first, middle, second, htoken, hrest, rfl⟩ := h
      have hmiddle : After (before ++ [token]) middle := hafter.feed (by rw [htoken])
      exact (accounts_of_feed hafter.orderly.stack htoken).append (ih hmiddle hrest)

theorem Orderly.operators_stack {tokens : List Token} (h : Orderly tokens yard)
    (hparens : yard.stack.any Token.isParenthesis = false) :
    (operators yard.stack).length ≤ 2 ∧
      ∀ first second, operators yard.stack = [first, second] →
        ¬first.isAdditive ∧ second.isAdditive := by
  have hoperators : ∀ token ∈ yard.stack, token.isOperator = true := by
    intro token htoken
    apply (h.stack token htoken).resolve_right
    rintro rfl
    rw [List.any_eq_false] at hparens
    exact hparens _ htoken rfl
  have hlevel : yard.stack.splitOn .openParen = [yard.stack] := by
    apply List.splitOnP_eq_singleton
    intro token htoken
    rw [beq_eq_false_iff_ne]
    rintro rfl
    cases hoperators _ htoken
  have hmem : yard.stack ∈ yard.stack.splitOn .openParen := by
    rw [hlevel]
    exact List.mem_singleton_self _
  obtain ⟨htighter, hlength⟩ := h.levels yard.stack hmem
  obtain ⟨ops, hstack⟩ := exists_eq_map_operator hoperators
  rw [hstack] at htighter hlength ⊢
  rw [operators_map_operator]
  rw [List.length_map] at hlength
  refine ⟨hlength, ?_⟩
  rintro first second rfl
  have hprecedence : second.precedence < first.precedence := by
    simpa [BindsTighter] using htighter
  cases first <;> cases second <;> simp_all [Operator.precedence, Operator.isAdditive]

end Yard

theorem exists_finish_of_outcome_postfixOrder {tokens ordered : List Token}
    (h : (postfixOrder tokens).outcome = .ok ordered) :
    ∃ yard, tokens.foldlM Yard.feed {} = ⟨(postfixOrder tokens).events, .ok yard⟩ ∧
      yard.finish = .ok ordered := by
  have horder := Traced.eq_mk_of_outcome_eq h
  generalize (postfixOrder tokens).events = events at horder
  rw [postfixOrder, Traced.bind_eq_mk_ok_iff] at horder
  obtain ⟨first, yard, second, hfold, hend, rfl⟩ := horder
  rw [Traced.mapError_eq_mk_ok_iff] at hfold
  split at hend
  next => cases hend
  next =>
    obtain ⟨rfl, hfinish⟩ := Traced.mk.inj hend
    rw [List.append_nil]
    exact ⟨yard, hfold, Traced.mapError_eq_ok_iff.mp hfinish⟩

/-- The log of a reordering tells one list of moves. The operators that it names are, in this order,
the first operators of the result. At most two operators of the result are not named, and of two the
first is multiplicative and the second additive. -/
theorem postfixOrder_log_names_operators {tokens ordered : List Token}
    (h : (postfixOrder tokens).outcome = .ok ordered) :
    ∃! moves : List Move,
      ((postfixOrder tokens).events.map fun event => (event.level, event.message)) =
        moves.map (fun move => (.trace, move.message)) ∧
      ∃ unnamed, operators ordered = moves.map Move.moved ++ unnamed ∧ unnamed.length ≤ 2 ∧
        ∀ first second, unnamed = [first, second] → ¬first.isAdditive ∧ second.isAdditive := by
  obtain ⟨yard, hfold, hfinish⟩ := exists_finish_of_outcome_postfixOrder h
  have hstart : Yard.After [] {} := .due (.outermost .nothing)
  have hafter : Yard.After tokens yard := hstart.feedAll (by rw [Yard.feedAll, hfold])
  obtain ⟨moves, hevents, houtput⟩ := Yard.accounts_of_foldlM_feed hstart hfold
  have hlog : ((postfixOrder tokens).events.map fun event => (event.level, event.message)) =
      moves.map fun move => (.trace, move.message) := by
    rw [hevents, List.map_map]
    simp only [Function.comp_def, Move.level_event, Move.message_event]
  refine ⟨moves, ⟨hlog, operators yard.stack, ?_⟩, ?_⟩
  · rw [hafter.orderly.finish_eq] at hfinish
    split at hfinish
    next => cases hfinish
    next hparens =>
      cases hfinish
      rw [operators_append, houtput]
      exact ⟨rfl, hafter.orderly.operators_stack (Bool.eq_false_iff.mpr hparens)⟩
  · rintro moves' ⟨hlog', -⟩
    have hinjective : Function.Injective fun move : Move => (LogLevel.trace, move.message) :=
      fun _ _ heq => Move.message_injective (Prod.mk.inj heq).2
    apply List.map_injective_iff.mpr hinjective
    rw [← hlog', ← hlog]

theorem postfixOrder_log_names_operators_of_group :
    let one : Token := .literal { toInt := 1 }
    let tokens : List Token := [.openParen, one, .operator .multiply, one, .operator .subtract, one,
      .closeParen, .operator .add, one, .operator .divide, one]
    let ordered : List Token := [one, one, .operator .multiply, one, .operator .subtract, one, one,
      .operator .divide, .operator .add]
    (postfixOrder tokens).outcome = .ok ordered ∧
    (postfixOrder tokens).events.map Event.message =
      ["'-' moves * to output", "')' moves - to output"] ∧
    ∃! moves : List Move,
      ((postfixOrder tokens).events.map fun event => (event.level, event.message)) =
        moves.map (fun move => (.trace, move.message)) ∧
      ∃ unnamed, operators ordered = moves.map Move.moved ++ unnamed ∧ unnamed.length ≤ 2 ∧
        ∀ first second, unnamed = [first, second] → ¬first.isAdditive ∧ second.isAdditive := by
  intro one tokens ordered
  have horder : (postfixOrder tokens).outcome = .ok ordered := by rfl
  have hmessages : (postfixOrder tokens).events.map Event.message =
      ["'-' moves * to output", "')' moves - to output"] := by decide +kernel
  exact ⟨horder, hmessages, postfixOrder_log_names_operators horder⟩

end InfixArithmetic
