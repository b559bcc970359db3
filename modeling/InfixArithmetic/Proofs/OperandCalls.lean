import InfixArithmetic.Proofs.DescentLog
import Mathlib.Control.Monad.Basic

namespace InfixArithmetic.Descent

/-- A call for the operand that is due at `start`, with the position after it and its outcome. -/
structure OperandCall where
  level : List Token
  start : Nat
  stop : Nat
  outcome : Except SyntaxError Expr
deriving DecidableEq

/-- The position after the token at `position`, if there is a token. -/
def past (level : List Token) (position : Nat) : Nat :=
  if position < level.length then position + 1 else position

/-- What the reader makes of the operand that is due at a position, and where it goes on. -/
def operandOf (level : List Token) (start : Nat) : Except SyntaxError (Expr × Nat) :=
  match operandAt level start with
  | .error error => .error error
  | .ok (.literal value) => .ok (.literal value, start + 1)
  | .ok (.group close) =>
      (expression (level.extract (start + 1) close)).outcome.bind fun inside =>
        .ok (inside, close + 1)

/-- The call for the operand that is due at a position, as the reader answers it. One that fails has
taken a single token, even if it fails inside a group. -/
def callAt (level : List Token) (start : Nat) : OperandCall :=
  match operandOf level start with
  | .error error => ⟨level, start, past level start, .error error⟩
  | .ok (operand, stop) => ⟨level, start, stop, .ok operand⟩

/-- An operand that is due leads to the next ones: the first one inside its group, and the one after
the operator that follows it. -/
inductive Leads : List Token → Nat → List Token → Nat → Prop where
  | inside {level : List Token} {start close : Nat} :
      operandAt level start = .ok (.group close) →
      checkEdges (level.extract (start + 1) close) = .ok () →
      Leads level start (level.extract (start + 1) close) 0
  | next {level : List Token} {start stop : Nat} {operand : Expr} {op : Operator} :
      operandOf level start = .ok (operand, stop) → level[stop]? = some (.operator op) →
      Leads level start level (stop + 1)

/-- Reading the tokens comes to a position where an operand is due. -/
inductive Asks (tokens : List Token) : List Token → Nat → Prop where
  | first : checkEdges tokens = .ok () → Asks tokens tokens 0
  | after {level level' : List Token} {start start' : Nat} :
      Asks tokens level start → Leads level start level' start' → Asks tokens level' start'

theorem outcome_factor (level : List Token) (pending : Pending) (start : Nat) :
    (factor level pending start).outcome = (operandOf level start).bind fun read =>
      (afterFactor level pending read.1 read.2).outcome := by
  rw [operandOf]
  cases hoperand : operandAt level start with
  | error error =>
      rw [factor_of_error pending hoperand]
      rfl
  | ok operand =>
      cases operand with
      | literal value =>
          rw [factor_of_literal pending hoperand]
          rfl
      | group close =>
          rw [outcome_factor_of_group pending hoperand]
          simp only
          cases (expression (level.extract (start + 1) close)).outcome <;> rfl

/-- The call is one that reading the tokens makes. -/
def OperandCall.MadeBy (tokens : List Token) (call : OperandCall) : Prop :=
  Asks tokens call.level call.start ∧ call = callAt call.level call.start

/-- What comes of a level or of the rest of one, and the calls for operands in the order in which
they are made. -/
structure Observed where
  calls : List OperandCall
  outcome : Except SyntaxError Expr
deriving DecidableEq

mutual

def observeExpression (level : List Token) : Observed :=
  match checkEdges level with
  | .error error => ⟨[], .error error⟩
  | .ok _ => observeFactor level {} 0
termination_by 2 * level.length + 2

/-- A call takes one token, and the rest of a group only once its inside has been read. -/
def observeFactor (level : List Token) (pending : Pending) (position : Nat) : Observed :=
  match h : operandAt level position with
  | .error error => ⟨[⟨level, position, past level position, .error error⟩], .error error⟩
  | .ok (.literal value) =>
      let rest := observeAfterFactor level pending (.literal value) (position + 1)
      ⟨⟨level, position, position + 1, .ok (.literal value)⟩ :: rest.calls, rest.outcome⟩
  | .ok (.group close) =>
      let inside := observeExpression (level.extract (position + 1) close)
      match inside.outcome with
      | .error error =>
          ⟨⟨level, position, past level position, .error error⟩ :: inside.calls, .error error⟩
      | .ok operand =>
          let rest := observeAfterFactor level pending operand (close + 1)
          ⟨⟨level, position, close + 1, .ok operand⟩ :: (inside.calls ++ rest.calls),
            rest.outcome⟩
termination_by 2 * (level.length - position) + 1
decreasing_by
  · have hlt := lt_length_of_operandAt h
    omega
  · have hbounds := bounds_of_operandAt_group h
    simp only [List.extract_eq_take_drop, List.length_take, List.length_drop]
    omega
  · have hbounds := bounds_of_operandAt_group h
    omega

def observeAfterFactor (level : List Token) (pending : Pending) (operand : Expr)
    (position : Nat) : Observed :=
  match h : level[position]? with
  | some (.operator op) => observeFactor level (pending.next operand op) (position + 1)
  | some .closeParen => ⟨[], .error .unmatchedParenthesis⟩
  | some token => ⟨[], .error (.unexpected token)⟩
  | none => ⟨[], .ok (pending.finish operand)⟩
termination_by 2 * (level.length - position)
decreasing_by
  have hlt := (List.getElem?_eq_some_iff.mp h).1
  omega

end

section

variable {level : List Token} {position : Nat}

theorem observeFactor_of_error {error : SyntaxError} (pending : Pending)
    (h : operandAt level position = .error error) :
    observeFactor level pending position =
      ⟨[⟨level, position, past level position, .error error⟩], .error error⟩ := by
  rw [observeFactor]
  split <;> simp_all

theorem observeFactor_of_literal {value : Value} (pending : Pending)
    (h : operandAt level position = .ok (.literal value)) :
    observeFactor level pending position =
      let rest := observeAfterFactor level pending (.literal value) (position + 1)
      ⟨⟨level, position, position + 1, .ok (.literal value)⟩ :: rest.calls, rest.outcome⟩ := by
  rw [observeFactor]
  split <;> simp_all

theorem observeFactor_of_group_error {close : Nat} {error : SyntaxError} (pending : Pending)
    (h : operandAt level position = .ok (.group close))
    (hinside : (observeExpression (level.extract (position + 1) close)).outcome = .error error) :
    observeFactor level pending position =
      ⟨⟨level, position, past level position, .error error⟩ ::
        (observeExpression (level.extract (position + 1) close)).calls, .error error⟩ := by
  rw [observeFactor]
  split <;> simp_all

theorem observeFactor_of_group_ok {close : Nat} {operand : Expr} (pending : Pending)
    (h : operandAt level position = .ok (.group close))
    (hinside : (observeExpression (level.extract (position + 1) close)).outcome = .ok operand) :
    observeFactor level pending position =
      let inside := observeExpression (level.extract (position + 1) close)
      let rest := observeAfterFactor level pending operand (close + 1)
      ⟨⟨level, position, close + 1, .ok operand⟩ :: (inside.calls ++ rest.calls),
        rest.outcome⟩ := by
  rw [observeFactor]
  split <;> simp_all

theorem calls_observeAfterFactor (level : List Token) (pending : Pending) (operand : Expr)
    (position : Nat) :
    (observeAfterFactor level pending operand position).calls =
      match level[position]? with
      | some (.operator op) => (observeFactor level (pending.next operand op) (position + 1)).calls
      | _ => [] := by
  rw [observeAfterFactor]
  split
  next op htoken => simp only [htoken]
  next htoken => simp only [htoken]
  next token hoperator hclose htoken =>
    cases token with
    | operator op => exact absurd rfl (hoperator op)
    | _ => simp only [htoken]
  next htoken => simp only [htoken]

end

theorem outcome_observe :
    (∀ level, (observeExpression level).outcome = (expression level).outcome) ∧
    (∀ level pending position, (observeFactor level pending position).outcome =
      (factor level pending position).outcome) ∧
    (∀ level pending operand position, (observeAfterFactor level pending operand position).outcome =
      (afterFactor level pending operand position).outcome) := by
  apply reader_induct
  case level =>
    intro level ih
    rw [observeExpression, outcome_expression]
    cases checkEdges level with
    | error error => rfl
    | ok _ => exact ih
  case noOperand =>
    intro level pending position error hoperand
    rw [observeFactor_of_error pending hoperand, factor_of_error pending hoperand]
    rfl
  case literal =>
    intro level pending position value hoperand ih
    rw [observeFactor_of_literal pending hoperand, factor_of_literal pending hoperand]
    exact ih
  case group =>
    intro level pending position close hoperand ihInside ihAfter
    rw [outcome_factor_of_group pending hoperand, ← ihInside]
    cases hinside : (observeExpression (level.extract (position + 1) close)).outcome with
    | error error =>
        rw [observeFactor_of_group_error pending hoperand hinside]
        rfl
    | ok operand =>
        rw [observeFactor_of_group_ok pending hoperand hinside]
        exact ihAfter operand
  case afterOperand =>
    intro level pending operand position ih
    rw [observeAfterFactor, outcome_afterFactor]
    split
    next op htoken =>
      simp only [htoken]
      exact ih op htoken
    next htoken => simp only [htoken]
    next token hoperator hclose htoken =>
      cases token with
      | operator op => exact absurd rfl (hoperator op)
      | closeParen => exact absurd rfl hclose
      | _ => simp only [htoken]
    next htoken => simp only [htoken]

/-- The groups that a reader tells of, whatever comes of it. -/
def loggedGroups (reader : Traced SyntaxError Expr) : List Event :=
  reader.events.filter Event.isGroup

/-- What is told of a call that finds a group. -/
def OperandCall.group? (call : OperandCall) : Option Event :=
  match operandAt call.level call.start with
  | .ok (.group close) => some (.groupFound call.start close)
  | _ => none

theorem filterMap_group?_cons {level : List Token} {start close : Nat}
    (h : operandAt level start = .ok (.group close)) (stop : Nat)
    (outcome : Except SyntaxError Expr) (calls : List OperandCall) :
    (⟨level, start, stop, outcome⟩ :: calls).filterMap OperandCall.group? =
      .groupFound start close :: calls.filterMap OperandCall.group? := by
  apply List.filterMap_cons_some
  simp only [OperandCall.group?, h]

theorem loggedGroups_complete_bind (operation : Option OpenOperation) (right : Expr)
    (next : Expr → Traced SyntaxError Expr) :
    loggedGroups (complete operation right >>= next) =
      loggedGroups (next (join operation right)) := by
  rw [loggedGroups, Traced.events_bind_of_ok next (outcome_complete operation right), complete_eq,
    List.filter_append, Event.filter_isGroup_eq_nil isCombination_of_mem_completed]
  rfl

theorem loggedGroups_afterFactor (level : List Token) (pending : Pending) (operand : Expr)
    (position : Nat) :
    loggedGroups (afterFactor level pending operand position) =
      match level[position]? with
      | some (.operator op) => loggedGroups (factor level (pending.next operand op) (position + 1))
      | _ => [] := by
  rw [afterFactor, loggedGroups_complete_bind]
  split
  next op htoken =>
    simp only [htoken]
    split
    next hop =>
      rw [loggedGroups_complete_bind, Pending.next_of_additive pending operand hop]
      rfl
    next hop => rw [Pending.next_of_not_additive pending operand hop]
  next hoperator =>
    rw [loggedGroups_complete_bind]
    cases htoken : level[position]? with
    | none => rfl
    | some token =>
        cases token with
        | operator op => exact absurd htoken (hoperator op)
        | _ => rfl

theorem loggedGroups_factor_of_group {level : List Token} {position close : Nat} (pending : Pending)
    (h : operandAt level position = .ok (.group close)) :
    loggedGroups (factor level pending position) =
      .groupFound position close ::
        (loggedGroups (expression (level.extract (position + 1) close)) ++
          match (expression (level.extract (position + 1) close)).outcome with
          | .error _ => []
          | .ok operand => loggedGroups (afterFactor level pending operand (close + 1))) := by
  rw [factor_of_group pending h, loggedGroups, Traced.events_bind_of_ok _ rfl, Traced.events_log,
    List.singleton_append, List.filter_cons_of_pos (by rfl)]
  cases hinside : (expression (level.extract (position + 1) close)).outcome with
  | error error =>
      rw [Traced.events_bind_of_error _ hinside, List.append_nil]
      rfl
  | ok operand =>
      rw [Traced.events_bind_of_ok _ hinside, List.filter_append]
      rfl

theorem loggedGroups_eq :
    (∀ level, loggedGroups (expression level) =
      (observeExpression level).calls.filterMap OperandCall.group?) ∧
    (∀ level pending position, loggedGroups (factor level pending position) =
      (observeFactor level pending position).calls.filterMap OperandCall.group?) ∧
    (∀ level pending operand position, loggedGroups (afterFactor level pending operand position) =
      (observeAfterFactor level pending operand position).calls.filterMap OperandCall.group?) := by
  apply reader_induct
  case level =>
    intro level ih
    rw [expression, observeExpression]
    cases checkEdges level with
    | error error => rfl
    | ok _ => exact ih
  case noOperand =>
    intro level pending position error hoperand
    rw [observeFactor_of_error pending hoperand, factor_of_error pending hoperand]
    simp [loggedGroups, OperandCall.group?, hoperand]
  case literal =>
    intro level pending position value hoperand ih
    rw [observeFactor_of_literal pending hoperand, factor_of_literal pending hoperand, ih]
    simp [OperandCall.group?, hoperand]
  case group =>
    intro level pending position close hoperand ihInside ihAfter
    rw [loggedGroups_factor_of_group pending hoperand, ihInside, ← outcome_observe.1]
    cases hinside : (observeExpression (level.extract (position + 1) close)).outcome with
    | error error =>
        rw [observeFactor_of_group_error pending hoperand hinside, List.append_nil]
        exact (filterMap_group?_cons hoperand _ _ _).symm
    | ok operand =>
        rw [observeFactor_of_group_ok pending hoperand hinside]
        simp only [ihAfter, ← List.filterMap_append]
        exact (filterMap_group?_cons hoperand _ _ _).symm
  case afterOperand =>
    intro level pending operand position ih
    rw [calls_observeAfterFactor, loggedGroups_afterFactor]
    split
    next op htoken => exact ih op htoken
    next => rfl

@[simp] theorem level_callAt (level : List Token) (start : Nat) :
    (callAt level start).level = level := by
  rw [callAt]
  split <;> rfl

@[simp] theorem start_callAt (level : List Token) (start : Nat) :
    (callAt level start).start = start := by
  rw [callAt]
  split <;> rfl

/-- From a call the reader goes on with the recorded outcome, or fails with it. -/
def OperandCall.Faithful (call : OperandCall) : Prop :=
  ∀ pending, (factor call.level pending call.start).outcome =
    call.outcome.bind fun operand => (afterFactor call.level pending operand call.stop).outcome

theorem faithful_callAt (level : List Token) (start : Nat) : (callAt level start).Faithful := by
  intro pending
  rw [level_callAt, start_callAt, outcome_factor, callAt]
  cases operandOf level start <;> rfl

theorem mem_calls_observeExpression {level : List Token} {call : OperandCall} :
    call ∈ (observeExpression level).calls ↔
      checkEdges level = .ok () ∧ call ∈ (observeFactor level {} 0).calls := by
  rw [observeExpression]
  cases checkEdges level with
  | error error => simp
  | ok _ => simp

theorem mem_calls_observeFactor {level : List Token} {pending : Pending} {position : Nat}
    {call : OperandCall} :
    call ∈ (observeFactor level pending position).calls ↔
      call = callAt level position ∨
      (∃ close, operandAt level position = .ok (.group close) ∧
        call ∈ (observeExpression (level.extract (position + 1) close)).calls) ∨
      ∃ operand stop, operandOf level position = .ok (operand, stop) ∧
        call ∈ (observeAfterFactor level pending operand stop).calls := by
  cases hoperand : operandAt level position with
  | error error =>
      rw [observeFactor_of_error pending hoperand]
      simp [callAt, operandOf, hoperand]
  | ok operand =>
      cases operand with
      | literal value =>
          rw [observeFactor_of_literal pending hoperand]
          simp [callAt, operandOf, hoperand]
      | group close =>
          have hexpression := outcome_observe.1 (level.extract (position + 1) close)
          cases hinside : (observeExpression (level.extract (position + 1) close)).outcome with
          | error error =>
              rw [observeFactor_of_group_error pending hoperand hinside]
              rw [hinside] at hexpression
              simp [callAt, operandOf, hoperand, ← hexpression, Except.bind]
          | ok operand =>
              rw [observeFactor_of_group_ok pending hoperand hinside]
              rw [hinside] at hexpression
              simp [callAt, operandOf, hoperand, ← hexpression, Except.bind]

theorem callAt_mem_calls_observeFactor (level : List Token) (pending : Pending) (position : Nat) :
    callAt level position ∈ (observeFactor level pending position).calls :=
  mem_calls_observeFactor.mpr (.inl rfl)

theorem mem_calls_observeAfterFactor {level : List Token} {pending : Pending} {operand : Expr}
    {position : Nat} {call : OperandCall} :
    call ∈ (observeAfterFactor level pending operand position).calls ↔
      ∃ op, level[position]? = some (.operator op) ∧
        call ∈ (observeFactor level (pending.next operand op) (position + 1)).calls := by
  rw [calls_observeAfterFactor]
  split
  next op htoken => simp [htoken]
  next hoperator =>
    simp only [List.not_mem_nil, false_iff]
    rintro ⟨op, htoken, -⟩
    exact hoperator op htoken

/-- Induction over the reader, from one operand to those it leads to. -/
theorem operand_induct {onLevel : List Token → Prop} {onDue : List Token → Pending → Nat → Prop}
    {onMet : List Token → Pending → Expr → Nat → Prop}
    (level : ∀ level, onDue level {} 0 → onLevel level)
    (operand : ∀ level pending position,
      (∀ close, operandAt level position = .ok (.group close) →
        onLevel (level.extract (position + 1) close)) →
      (∀ operand stop, operandOf level position = .ok (operand, stop) →
        onMet level pending operand stop) →
      onDue level pending position)
    (afterOperand : ∀ level pending operand position,
      (∀ op, level[position]? = some (.operator op) →
        onDue level (pending.next operand op) (position + 1)) →
      onMet level pending operand position) :
    (∀ level, onLevel level) ∧ (∀ level pending position, onDue level pending position) ∧
      ∀ level pending operand position, onMet level pending operand position := by
  apply reader_induct level _ _ _ afterOperand
  · intro level pending position error hoperand
    apply operand <;> simp [operandOf, hoperand]
  · intro level pending position value hoperand ih
    apply operand
    · simp [hoperand]
    · intro operand stop hread
      simp only [operandOf, hoperand] at hread
      cases hread
      exact ih
  · intro level pending position close hoperand ihInside ihAfter
    apply operand
    · intro close' hgroup
      rw [hoperand] at hgroup
      cases hgroup
      exact ihInside
    · intro operand stop hread
      simp only [operandOf, hoperand] at hread
      obtain ⟨inside, -, hinside⟩ := Traced.bind_eq_ok_iff.mp hread
      cases hinside
      exact ihAfter operand

-- An operand that reading the tokens does not come to is never asked for.
theorem madeBy_of_mem_calls (tokens : List Token) :
    (∀ level, (checkEdges level = .ok () → Asks tokens level 0) →
      ∀ call ∈ (observeExpression level).calls, call.MadeBy tokens) ∧
    (∀ level pending position, Asks tokens level position →
      ∀ call ∈ (observeFactor level pending position).calls, call.MadeBy tokens) ∧
    (∀ level pending operand position,
      (∀ op, level[position]? = some (.operator op) → Asks tokens level (position + 1)) →
      ∀ call ∈ (observeAfterFactor level pending operand position).calls,
        call.MadeBy tokens) := by
  apply operand_induct
  case level =>
    intro level ih hfirst call hcall
    obtain ⟨hedges, hcall⟩ := mem_calls_observeExpression.mp hcall
    exact ih (hfirst hedges) call hcall
  case operand =>
    intro level pending position ihInside ihAfter hasks call hcall
    obtain rfl | ⟨close, hgroup, hcall⟩ | ⟨operand, stop, hread, hcall⟩ :=
      mem_calls_observeFactor.mp hcall
    · rw [OperandCall.MadeBy, level_callAt, start_callAt]
      exact ⟨hasks, rfl⟩
    · exact ihInside close hgroup (fun hedges => hasks.after (.inside hgroup hedges)) call hcall
    · have hnext : ∀ op, level[stop]? = some (.operator op) → Asks tokens level (stop + 1) :=
        fun op htoken => hasks.after (.next hread htoken)
      exact ihAfter operand stop hread hnext call hcall
  case afterOperand =>
    intro level pending operand position ih hnext call hcall
    obtain ⟨op, htoken, hcall⟩ := mem_calls_observeAfterFactor.mp hcall
    exact ih op htoken (hnext op htoken) call hcall

theorem callAt_mem_calls_of_leads {before after : List Token} {start start' : Nat}
    (h : Leads before start after start') :
    (∀ level, callAt before start ∈ (observeExpression level).calls →
      callAt after start' ∈ (observeExpression level).calls) ∧
    (∀ level pending position, callAt before start ∈ (observeFactor level pending position).calls →
      callAt after start' ∈ (observeFactor level pending position).calls) ∧
    (∀ level pending operand position,
      callAt before start ∈ (observeAfterFactor level pending operand position).calls →
      callAt after start' ∈ (observeAfterFactor level pending operand position).calls) := by
  apply operand_induct
  case level =>
    intro level ih hcall
    obtain ⟨hedges, hcall⟩ := mem_calls_observeExpression.mp hcall
    exact mem_calls_observeExpression.mpr ⟨hedges, ih hcall⟩
  case operand =>
    intro level pending position ihInside ihAfter hcall
    rw [mem_calls_observeFactor]
    obtain hcall | ⟨close, hgroup, hcall⟩ | ⟨operand, stop, hread, hcall⟩ :=
      mem_calls_observeFactor.mp hcall
    · -- The operand that leads on is the one read here.
      have hlevel := congrArg OperandCall.level hcall
      have hstart := congrArg OperandCall.start hcall
      rw [level_callAt, level_callAt] at hlevel
      rw [start_callAt, start_callAt] at hstart
      subst hlevel hstart
      cases h with
      | inside hgroup hedges =>
          exact .inr (.inl ⟨_, hgroup,
            mem_calls_observeExpression.mpr ⟨hedges, callAt_mem_calls_observeFactor ..⟩⟩)
      | next hread htoken =>
          exact .inr (.inr ⟨_, _, hread,
            mem_calls_observeAfterFactor.mpr ⟨_, htoken, callAt_mem_calls_observeFactor ..⟩⟩)
    · exact .inr (.inl ⟨close, hgroup, ihInside close hgroup hcall⟩)
    · exact .inr (.inr ⟨operand, stop, hread, ihAfter operand stop hread hcall⟩)
  case afterOperand =>
    intro level pending operand position ih hcall
    obtain ⟨op, htoken, hcall⟩ := mem_calls_observeAfterFactor.mp hcall
    exact mem_calls_observeAfterFactor.mpr ⟨op, htoken, ih op htoken hcall⟩

theorem callAt_mem_calls_of_asks {tokens level : List Token} {start : Nat}
    (h : Asks tokens level start) : callAt level start ∈ (observeExpression tokens).calls := by
  induction h with
  | first hedges =>
      exact mem_calls_observeExpression.mpr ⟨hedges, callAt_mem_calls_observeFactor ..⟩
  | after _ hleads ih => exact (callAt_mem_calls_of_leads hleads).1 tokens ih

theorem mem_calls_iff_madeBy {tokens : List Token} {call : OperandCall} :
    call ∈ (observeExpression tokens).calls ↔ call.MadeBy tokens := by
  constructor
  · exact (madeBy_of_mem_calls tokens).1 tokens .first call
  · rintro ⟨hasks, hcall⟩
    rw [hcall]
    exact callAt_mem_calls_of_asks hasks

end InfixArithmetic.Descent
