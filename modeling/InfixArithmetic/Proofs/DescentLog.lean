import InfixArithmetic.Proofs.DescentGrammar
import InfixArithmetic.Proofs.ExactEvaluation
import InfixArithmetic.Strategy.Parse
import Mathlib.Data.List.Forall2

namespace InfixArithmetic

/-- The parenthesis at `index` opens a group, and within its nesting level the parentheses of the
group have the positions `first` and `last`. -/
def GroupAt (tokens : List Token) (index first last : Nat) : Prop :=
  ∃ outside before inside after,
    tokens = outside ++ (before ++ .openParen :: (inside ++ .closeParen :: after)) ∧
    (∀ token ∈ outside.getLast?, token = .openParen) ∧ Bracket.Balanced before ∧
    Bracket.Balanced inside ∧
    index = outside.length + first ∧ first = before.length ∧ last = first + 1 + inside.length

theorem groupAt_outermost {before inside : List Token} (hbefore : Bracket.Balanced before)
    (hinside : Bracket.Balanced inside) (after : List Token) :
    GroupAt (before ++ .openParen :: (inside ++ .closeParen :: after)) before.length before.length
      (before.length + 1 + inside.length) := by
  refine ⟨[], before, inside, after, rfl, ?_, hbefore, hinside, (Nat.zero_add _).symm, rfl, rfl⟩
  intro token htoken
  cases htoken

theorem GroupAt.of_inside {inside : List Token} {index first last : Nat}
    (h : GroupAt inside index first last) (before after : List Token) :
    GroupAt (before ++ .openParen :: (inside ++ after)) (index + (before.length + 1))
      first last := by
  obtain ⟨outside, before', inside', after', rfl, houtside, hbefore, hinside, hindex, hfirst,
    hlast⟩ := h
  refine ⟨before ++ .openParen :: outside, before', inside', after' ++ after, ?_, ?_, hbefore,
    hinside, ?_, hfirst, hlast⟩
  · simp only [List.append_assoc, List.cons_append]
  · intro token htoken
    rw [List.append_cons, List.getLast?_append, List.getLast?_concat, Option.mem_def,
      Option.or_eq_some_iff] at htoken
    rcases htoken with htoken | ⟨-, hopen⟩
    · exact houtside token htoken
    · exact (Option.some.inj hopen).symm
  · rw [List.length_append, List.length_cons]
    omega

namespace Event

def isCombination : Event → Bool
  | combined .. => true
  | _ => false

def isGroup : Event → Bool
  | groupFound .. => true
  | _ => false

theorem level_of_isCombination {event : Event} (h : event.isCombination = true) :
    event.level = .trace := by
  cases event with
  | combined op left right => rfl
  | _ => cases h

theorem level_of_isGroup {event : Event} (h : event.isGroup = true) : event.level = .trace := by
  cases event with
  | groupFound first last => rfl
  | _ => cases h

theorem filter_isGroup_eq_nil {events : List Event}
    (h : ∀ event ∈ events, event.isCombination = true) : events.filter isGroup = [] := by
  rw [List.filter_eq_nil_iff]
  intro event hevent
  have hcombination := h event hevent
  cases event with
  | combined op left right => exact Bool.false_ne_true
  | _ => cases hcombination

/-- This event is the discovery of the group at this index. -/
def FindsGroup (tokens : List Token) (index : Nat) (event : Event) : Prop :=
  ∃ first last, GroupAt tokens index first last ∧ event = .groupFound first last

theorem FindsGroup.of_inside {inside : List Token} {index : Nat} {event : Event}
    (h : FindsGroup inside index event) (before after : List Token) :
    FindsGroup (before ++ .openParen :: (inside ++ after)) (index + (before.length + 1)) event := by
  obtain ⟨first, last, hgroup, rfl⟩ := h
  exact ⟨first, last, hgroup.of_inside before after, rfl⟩

end Event

namespace Expr

def combination? : Expr → Option Event
  | literal _ => none
  | operation op left right => some (.combined op left right)

/-- The combinations by which an expression is put together, operands first. -/
def combinations (e : Expr) : List Event :=
  e.parts.filterMap combination?

theorem combinations_operation (op : Operator) (left right : Expr) :
    (operation op left right).combinations =
      left.combinations ++ right.combinations ++ [.combined op left right] := by
  rw [combinations, parts, List.filterMap_append, List.filterMap_append]
  rfl

end Expr

namespace Descent

/-- What the completion of an operation logs. -/
def completed (operation : Option OpenOperation) (right : Expr) : List Event :=
  operation.toList.map fun operation => .combined operation.op operation.left right

theorem complete_eq (operation : Option OpenOperation) (right : Expr) :
    complete operation right = ⟨completed operation right, .ok (join operation right)⟩ := by
  cases operation <;> rfl

theorem isCombination_of_mem_completed {operation : Option OpenOperation} {right : Expr} :
    ∀ event ∈ completed operation right, event.isCombination = true := by
  intro event hevent
  obtain ⟨operation, -, rfl⟩ := List.mem_map.mp hevent
  rfl

/-- The combinations that belong to the left operand of a waiting operation. -/
def leftCombinations (operation : Option OpenOperation) : List Event :=
  operation.elim [] (·.left.combinations)

theorem combinations_join (operation : Option OpenOperation) (right : Expr) :
    (join operation right).combinations =
      leftCombinations operation ++ right.combinations ++ completed operation right := by
  cases operation with
  | none => exact (List.append_nil _).symm
  | some operation => exact Expr.combinations_operation operation.op operation.left right

namespace Pending

def combinations (pending : Pending) : List Event :=
  leftCombinations pending.sum ++ leftCombinations pending.product

/-- What is logged at the end of a level. -/
def finished (pending : Pending) (operand : Expr) : List Event :=
  completed pending.product operand ++ completed pending.sum (join pending.product operand)

/-- What is logged at an operator. -/
def settled (pending : Pending) (operand : Expr) (op : Operator) : List Event :=
  if op.isAdditive then pending.finished operand else completed pending.product operand

theorem isCombination_of_mem_finished {pending : Pending} {operand : Expr} :
    ∀ event ∈ pending.finished operand, event.isCombination = true := by
  rw [finished, List.forall_mem_append]
  exact ⟨isCombination_of_mem_completed, isCombination_of_mem_completed⟩

theorem isCombination_of_mem_settled {pending : Pending} {operand : Expr} {op : Operator} :
    ∀ event ∈ pending.settled operand op, event.isCombination = true := by
  rw [settled]
  split
  · exact isCombination_of_mem_finished
  · exact isCombination_of_mem_completed

theorem combinations_finish (pending : Pending) (operand : Expr) :
    (pending.finish operand).combinations =
      pending.combinations ++ operand.combinations ++ pending.finished operand := by
  rw [finish, combinations_join, combinations_join, combinations, finished]
  simp only [List.append_assoc]

theorem combinations_next (pending : Pending) (operand : Expr) (op : Operator) :
    (pending.next operand op).combinations =
      pending.combinations ++ operand.combinations ++ pending.settled operand op := by
  by_cases hop : op.isAdditive
  · rw [next_of_additive pending operand hop, settled, if_pos hop, ← combinations_finish]
    exact List.append_nil _
  · rw [next_of_not_additive pending operand hop, settled, if_neg hop, combinations, combinations]
    simp only [leftCombinations, Option.elim_some, combinations_join, List.append_assoc]

end Pending

theorem cases_of_afterFactor {level : List Token} {pending : Pending} {operand e : Expr}
    {position : Nat} {events : List Event}
    (h : afterFactor level pending operand position = ⟨events, .ok e⟩) :
    (level[position]? = none ∧ events = pending.finished operand ∧ e = pending.finish operand) ∨
      ∃ op later, level[position]? = some (.operator op) ∧
        events = pending.settled operand op ++ later ∧
        factor level (pending.next operand op) (position + 1) = ⟨later, .ok e⟩ := by
  rw [afterFactor, complete_eq, Traced.bind_eq_mk_ok_iff] at h
  obtain ⟨first, term, second, hterm, h, rfl⟩ := h
  cases hterm
  split at h
  next op htoken =>
    refine .inr ⟨op, ?_⟩
    split at h
    next hop =>
      rw [complete_eq, Traced.bind_eq_mk_ok_iff] at h
      obtain ⟨first, sum, later, hsum, hfactor, rfl⟩ := h
      cases hsum
      rw [Pending.next_of_additive pending operand hop, Pending.settled, if_pos hop,
        Pending.finished]
      exact ⟨later, htoken, (List.append_assoc _ _ _).symm, hfactor⟩
    next hop =>
      rw [Pending.next_of_not_additive pending operand hop, Pending.settled, if_neg hop]
      exact ⟨second, htoken, rfl, h⟩
  next =>
    rw [complete_eq, Traced.bind_eq_mk_ok_iff] at h
    obtain ⟨first, sum, later, hsum, hend, rfl⟩ := h
    cases hsum
    split at hend
    next hnone =>
      cases hend
      rw [List.append_nil]
      exact .inl ⟨hnone, rfl, rfl⟩
    next => cases hend
    next => cases hend

/-- The events logged from a position on are a record of the rest of the level: with the
combinations logged before they are those of the whole expression, and they tell of every group that
is still to come. -/
structure Records (level : List Token) (position : Nat) (logged events : List Event) (e : Expr) :
    Prop where
  combinations : logged ++ events.filter Event.isCombination = e.combinations
  groups : List.Forall₂ (Event.FindsGroup level)
    ((level.drop position).findIdxs (· = .openParen) position) (events.filter Event.isGroup)

namespace Records

variable {level : List Token} {position : Nat} {logged events : List Event} {e : Expr}

theorem of_combinations {later : List Event}
    (hevents : ∀ event ∈ events, event.isCombination = true)
    (h : Records level position (logged ++ events) later e) :
    Records level position logged (events ++ later) e := by
  constructor
  · rw [List.filter_append, List.filter_eq_self.mpr hevents, ← List.append_assoc]
    exact h.combinations
  · rw [List.filter_append, Event.filter_isGroup_eq_nil hevents, List.nil_append]
    exact h.groups

theorem of_end (hend : level[position]? = none) (hlogged : logged = e.combinations) :
    Records level position logged [] e := by
  constructor
  · rw [hlogged]
    exact List.append_nil _
  · rw [List.drop_eq_nil_of_le (List.getElem?_eq_none_iff.mp hend)]
    exact .nil

theorem of_token {token : Token} (htoken : level[position]? = some token)
    (hopen : token ≠ .openParen) (h : Records level (position + 1) logged events e) :
    Records level position logged events e := by
  refine ⟨h.combinations, ?_⟩
  rw [drop_eq_cons_of_getElem? htoken, List.findIdxs_cons, if_neg (by simpa using hopen)]
  exact h.groups

/-- The groups from an opening parenthesis on: this one, those inside it and those after it. -/
theorem findIdxs_of_drop_eq_group {inside rest : List Token}
    (h : level.drop position = .openParen :: (inside ++ .closeParen :: rest)) :
    (level.drop position).findIdxs (· = .openParen) position =
      position :: (inside.findIdxs (· = .openParen) (position + 1) ++
        (level.drop (position + 1 + inside.length + 1)).findIdxs (· = .openParen)
          (position + 1 + inside.length + 1)) := by
  rw [drop_of_drop_eq_group h, h, List.findIdxs_cons, if_pos (by simp), List.findIdxs_append,
    List.findIdxs_cons, if_neg (by simp)]

theorem of_group {inside rest : List Token} {operand : Expr} {first later : List Event}
    (hdrop : level.drop position = .openParen :: (inside ++ .closeParen :: rest))
    (hbefore : Bracket.Balanced (level.take position)) (hbalanced : Bracket.Balanced inside)
    (hinside : Records inside 0 [] first operand)
    (hafter : Records level (position + 1 + inside.length + 1) (logged ++ operand.combinations)
      later e) :
    Records level position logged
      (.groupFound position (position + 1 + inside.length) :: (first ++ later)) e := by
  have hlevel : level = level.take position ++ .openParen :: (inside ++ .closeParen :: rest) := by
    rw [← hdrop, List.take_append_drop]
  have hlength : (level.take position).length = position := by
    have hlt := (List.getElem?_eq_some_iff.mp (getElem?_of_drop_eq_cons hdrop)).1
    rw [List.length_take]
    omega
  constructor
  · have hfirst := hinside.combinations
    rw [List.nil_append] at hfirst
    rw [List.filter_cons_of_neg (by simp [Event.isCombination]), List.filter_append, hfirst,
      ← List.append_assoc]
    exact hafter.combinations
  · rw [findIdxs_of_drop_eq_group hdrop, List.filter_cons_of_pos (by rfl), List.filter_append]
    refine .cons ?_ (List.rel_append ?_ hafter.groups)
    · have hgroup := groupAt_outermost hbefore hbalanced rest
      rw [← hlevel, hlength] at hgroup
      exact ⟨position, _, hgroup, rfl⟩
    · rw [List.findIdxs_start, List.forall₂_map_left_iff]
      have hgroups := hinside.groups
      rw [List.drop_zero] at hgroups
      refine hgroups.imp ?_
      intro index event hfinds
      have hshifted := hfinds.of_inside (level.take position) (.closeParen :: rest)
      rwa [← hlevel, hlength] at hshifted

end Records

theorem balanced_take_succ {level : List Token} {position : Nat} {token : Token}
    (h : Bracket.Balanced (level.take position)) (htoken : level[position]? = some token)
    (hparen : token.isParenthesis = false) : Bracket.Balanced (level.take (position + 1)) := by
  rw [take_succ_of_getElem? htoken]
  exact h.append (Bracket.balanced_singleton hparen)

-- The tokens before the position are balanced, so that the positions of a group are those of its
-- nesting level.
theorem records_of_eq_mk :
    (∀ level, ∀ events e, expression level = ⟨events, .ok e⟩ → Records level 0 [] events e) ∧
    (∀ level pending position, ∀ events e, Bracket.Balanced (level.take position) →
      factor level pending position = ⟨events, .ok e⟩ →
      Records level position pending.combinations events e) ∧
    (∀ level pending operand position, ∀ events e, Bracket.Balanced (level.take position) →
      afterFactor level pending operand position = ⟨events, .ok e⟩ →
      Records level position (pending.combinations ++ operand.combinations) events e) := by
  apply reader_induct
  case level =>
    intro level ih events e h
    rw [expression, Traced.bind_eq_mk_ok_iff] at h
    obtain ⟨first, _, second, hedges, hfactor, rfl⟩ := h
    cases congrArg Traced.events hedges
    exact ih second e (Bracket.balanced_iff_depthThrough.mpr rfl) hfactor
  case noOperand =>
    intro level pending position error hoperand events e _ h
    rw [factor_of_error pending hoperand] at h
    cases h
  case literal =>
    intro level pending position value hoperand ih events e hbefore h
    rw [factor_of_literal pending hoperand] at h
    have htoken := operandAt_eq_literal_iff.mp hoperand
    have hrecords := ih events e (balanced_take_succ hbefore htoken rfl) h
    rw [Expr.combinations, Expr.parts, List.filterMap_cons_none rfl, List.filterMap_nil,
      List.append_nil] at hrecords
    exact hrecords.of_token htoken (by simp)
  case group =>
    intro level pending position close hoperand ihInside ihAfter events e hbefore h
    obtain ⟨inside, rest, hdrop, hbalanced, rfl⟩ := operandAt_eq_group_iff.mp hoperand
    rw [extract_of_drop_eq_group hdrop] at ihInside
    rw [factor_of_group pending hoperand, extract_of_drop_eq_group hdrop,
      Traced.bind_eq_mk_ok_iff] at h
    obtain ⟨found, _, events, hfound, h, rfl⟩ := h
    cases hfound
    rw [Traced.bind_eq_mk_ok_iff] at h
    obtain ⟨first, operand, later, hinside, hafter, rfl⟩ := h
    rw [List.singleton_append]
    have hgroup : Bracket.Balanced (level.take (position + 1 + inside.length + 1)) := by
      rw [take_of_drop_eq_group hdrop]
      exact hbefore.append hbalanced.group
    exact .of_group hdrop hbefore hbalanced (ihInside first operand hinside)
      (ihAfter operand later e hgroup hafter)
  case afterOperand =>
    intro level pending operand position ih events e hbefore h
    rcases cases_of_afterFactor h with ⟨hend, rfl, rfl⟩ | ⟨op, later, htoken, rfl, hfactor⟩
    · rw [← List.append_nil (pending.finished operand)]
      exact .of_combinations Pending.isCombination_of_mem_finished
        (.of_end hend (pending.combinations_finish operand).symm)
    · have hafter := balanced_take_succ hbefore htoken rfl
      have hnext := ih op htoken later e hafter hfactor
      rw [Pending.combinations_next] at hnext
      exact .of_combinations Pending.isCombination_of_mem_settled (hnext.of_token htoken (by simp))

end Descent

/-- The message begins with this heading. -/
def Headed (heading message : String) : Prop :=
  heading.toList <+: message.toList

instance (heading message : String) : Decidable (Headed heading message) :=
  inferInstanceAs (Decidable (_ <+: _))

theorem Headed.refl {message : String} : Headed message message :=
  List.prefix_refl _

theorem Headed.append {heading message : String} (h : Headed heading message) (rest : String) :
    Headed heading (message ++ rest) := by
  rw [Headed, String.toList_append]
  exact h.trans (List.prefix_append _ _)

namespace Event

/-- What the messages of all events of a kind begin with. -/
def heading : Event → String
  | tokenized .. => "tokenized "
  | groupFound .. => "F: parenthesised tokens "
  | combined op .. => if op.isAdditive then "E: " else "T: "
  | movedByClose .. => "')' moves "
  | movedByOperator .. => "'"
  | reordered .. => "postfix tokens: "
  | built strategy _ => strategy.name
  | builtFromPostfix .. => "built tree "
  | simplified .. => "simplified "
  | heightParsed .. => "parsed expression of height "
  | heightSimplified .. => "simplified expression to height "

theorem headed_heading (event : Event) : Headed event.heading event.message := by
  cases event with
  | tokenized text tokens => exact ((Headed.refl.append _).append _).append _
  | groupFound first last => exact ((Headed.refl.append _).append _).append _
  | combined op left right =>
      exact ((((Headed.refl.append _).append _).append _).append _).append _
  | movedByClose moved => exact (Headed.refl.append _).append _
  | movedByOperator op moved => exact (((Headed.refl.append _).append _).append _).append _
  | reordered tokens => exact Headed.refl.append _
  | built strategy root => exact (Headed.refl.append _).append _
  | builtFromPostfix root text => exact ((Headed.refl.append _).append _).append _
  | simplified before height after =>
      exact ((((Headed.refl.append _).append _).append _).append _).append _
  | heightParsed height => exact Headed.refl.append _
  | heightSimplified height => exact Headed.refl.append _

-- Of two prefixes of one message one is a prefix of the other, which rules out all other kinds.
theorem headed_group_iff {event : Event} :
    Headed "F: " event.message ↔ event.isGroup = true := by
  constructor
  · intro h
    have hheadings := List.prefix_or_prefix_of_prefix event.headed_heading h
    cases event with
    | groupFound first last => rfl
    | combined op left right =>
        cases op <;> simp [heading, Operator.isAdditive, Operator.precedence] at hheadings
    | built strategy root => cases strategy <;> simp [heading, Strategy.name] at hheadings
    | _ => simp [heading] at hheadings
  · intro h
    cases event with
    | groupFound first last =>
        have hheading : Headed "F: " "F: parenthesised tokens " := by decide +kernel
        exact hheading.trans (groupFound first last).headed_heading
    | _ => cases h

theorem headed_combination_iff {event : Event} :
    Headed "E: " event.message ∨ Headed "T: " event.message ↔ event.isCombination = true := by
  constructor
  · intro h
    have hheadings := h.imp (List.prefix_or_prefix_of_prefix event.headed_heading)
      (List.prefix_or_prefix_of_prefix event.headed_heading)
    cases event with
    | combined op left right => rfl
    | built strategy root => cases strategy <;> simp [heading, Strategy.name] at hheadings
    | _ => simp [heading] at hheadings
  · intro h
    cases event with
    | combined op left right =>
        have hheading := (combined op left right).headed_heading
        by_cases hop : op.isAdditive
        · rw [heading, if_pos hop] at hheading
          exact .inl hheading
        · rw [heading, if_neg hop] at hheading
          exact .inr hheading
    | _ => cases h

end Event

/-- The messages at the level of single steps, in the order in which they were logged. -/
def traceMessages (events : List Event) : List String :=
  (events.filter (·.level = .trace)).map Event.message

theorem filter_traceMessages {isHeaded : String → Bool} {isKind : Event → Bool}
    (hheaded : ∀ event : Event, isHeaded event.message = true ↔ isKind event = true)
    (htrace : ∀ event, isKind event = true → event.level = .trace) (events : List Event) :
    (traceMessages events).filter isHeaded = (events.filter isKind).map Event.message := by
  rw [traceMessages, List.filter_map, List.filter_filter]
  congr 1
  apply List.filter_congr
  intro event _
  rw [Bool.eq_iff_iff, Bool.and_eq_true, decide_eq_true_iff, Function.comp_apply, hheaded]
  exact and_iff_left_of_imp (htrace event)

theorem filter_headed_combination (events : List Event) :
    ((traceMessages events).filter fun message => Headed "E: " message ∨ Headed "T: " message) =
      (events.filter Event.isCombination).map Event.message := by
  apply filter_traceMessages
  · intro event
    rw [decide_eq_true_iff]
    exact Event.headed_combination_iff
  · exact fun _ => Event.level_of_isCombination

theorem filter_headed_group (events : List Event) :
    (traceMessages events).filter (Headed "F: ") =
      (events.filter Event.isGroup).map Event.message := by
  apply filter_traceMessages
  · intro event
    rw [decide_eq_true_iff]
    exact Event.headed_group_iff
  · exact fun _ => Event.level_of_isGroup

/-- What the log says of the operation at the root. -/
def Expr.report? : Expr → Option String
  | literal _ => none
  | operation op left right =>
      some ((if op.isAdditive then "E: " else "T: ") ++ left.bracketed ++ " " ++ op.text ++ " " ++
        right.bracketed)

theorem Expr.map_message_combinations (e : Expr) :
    e.combinations.map Event.message = e.parts.filterMap report? := by
  rw [combinations, List.map_filterMap]
  congr 1
  funext part
  cases part <;> rfl

namespace Strategy

theorem exists_expression_of_parse {tokens : List Token} {e : Expr}
    (h : (recursiveDescent.parse tokens).outcome = .ok e) :
    ∃ events, Descent.expression tokens = ⟨events, .ok e⟩ ∧
      traceMessages (recursiveDescent.parse tokens).events = traceMessages events := by
  have hparse := Traced.eq_mk_of_outcome_eq h
  generalize (recursiveDescent.parse tokens).events = events at hparse
  rw [parse] at hparse
  split at hparse
  · cases hparse
  · rw [Traced.bind_eq_mk_ok_iff] at hparse
    obtain ⟨first, root, second, hread, hlog, rfl⟩ := hparse
    rw [read, Traced.mapError_eq_mk_ok_iff] at hread
    cases hlog
    refine ⟨first, hread, ?_⟩
    rw [traceMessages, List.filter_append]
    exact congrArg (List.map Event.message) (List.append_nil _)

/-- The log of a recursive descent tells the operations of its result in postfix order, each with
its operands and with the level of the grammar that it belongs to, and the groups in the order of
their opening parentheses. -/
theorem recursiveDescent_log_records_parse {tokens : List Token} {e : Expr}
    (h : (recursiveDescent.parse tokens).outcome = .ok e) :
    let messages := traceMessages (recursiveDescent.parse tokens).events
    (messages.filter fun message => Headed "E: " message ∨ Headed "T: " message) =
      e.parts.filterMap Expr.report? ∧
    List.Forall₂
      (fun index message => ∃ first last, GroupAt tokens index first last ∧
        message = "F: parenthesised tokens " ++ first.repr ++ "..=" ++ last.repr)
      (tokens.findIdxs (· = .openParen)) (messages.filter (Headed "F: ")) := by
  intro messages
  obtain ⟨events, hexpression, hmessages⟩ := exists_expression_of_parse h
  obtain ⟨hcombinations, hgroups⟩ := Descent.records_of_eq_mk.1 tokens events e hexpression
  rw [List.nil_append] at hcombinations
  rw [List.drop_zero] at hgroups
  constructor
  · calc messages.filter (fun message => Headed "E: " message ∨ Headed "T: " message)
      _ = (events.filter Event.isCombination).map Event.message := by
          rw [← filter_headed_combination, ← hmessages]
      _ = e.combinations.map Event.message := by rw [hcombinations]
      _ = e.parts.filterMap Expr.report? := e.map_message_combinations
  · have hheaded : messages.filter (Headed "F: ") =
        (events.filter Event.isGroup).map Event.message := by
      rw [← filter_headed_group, ← hmessages]
    rw [hheaded, List.forall₂_map_right_iff]
    refine hgroups.imp ?_
    rintro index event ⟨first, last, hgroup, rfl⟩
    exact ⟨first, last, hgroup, rfl⟩

theorem recursiveDescent_log_records_parse_of_nested_groups :
    let one : Value := { toInt := 1 }
    let two : Value := { toInt := 2 }
    let three : Value := { toInt := 3 }
    let tokens : List Token := [.openParen, .literal one, .operator .add, .openParen, .literal two,
      .operator .multiply, .literal three, .closeParen, .closeParen, .operator .subtract,
      .openParen, .literal two, .closeParen, .operator .divide, .literal three]
    let inner : Expr := .operation .add (.literal one)
      (.operation .multiply (.literal two) (.literal three))
    let e : Expr := .operation .subtract inner
      (.operation .divide (.literal two) (.literal three))
    let messages := traceMessages (recursiveDescent.parse tokens).events
    (recursiveDescent.parse tokens).outcome = .ok e ∧
    messages = ["F: parenthesised tokens 0..=8", "F: parenthesised tokens 2..=6", "T: 2 * 3",
      "E: 1 + (* 2 3)", "F: parenthesised tokens 10..=12", "T: 2 / 3",
      "E: (+ 1 (* 2 3)) - (/ 2 3)"] ∧
    (messages.filter fun message => Headed "E: " message ∨ Headed "T: " message) =
      e.parts.filterMap Expr.report? ∧
    List.Forall₂
      (fun index message => ∃ first last, GroupAt tokens index first last ∧
        message = "F: parenthesised tokens " ++ first.repr ++ "..=" ++ last.repr)
      (tokens.findIdxs (· = .openParen)) (messages.filter (Headed "F: ")) := by
  intro one two three tokens inner e messages
  have houtcome : (recursiveDescent.parse tokens).outcome = .ok e := by decide +kernel
  have hmessages : messages = ["F: parenthesised tokens 0..=8", "F: parenthesised tokens 2..=6",
      "T: 2 * 3", "E: 1 + (* 2 3)", "F: parenthesised tokens 10..=12", "T: 2 / 3",
      "E: (+ 1 (* 2 3)) - (/ 2 3)"] := by decide +kernel
  exact ⟨houtcome, hmessages, recursiveDescent_log_records_parse houtcome⟩

end Strategy

end InfixArithmetic
