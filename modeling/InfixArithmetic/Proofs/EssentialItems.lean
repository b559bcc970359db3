import InfixArithmetic.Cli.Options
import InfixArithmetic.Traced

namespace InfixArithmetic.Cli

/-- The item chooses a parser, or how much of the log is shown. -/
def Item.isChoice : Item → Bool
  | .option .parser _ | .flag .verbose | .flag .quiet => true
  | _ => false

def essentials (items : List Item) : List Item :=
  items.filter fun item => !item.isChoice

/-- No parser is chosen, or one by its name and not for a postfix expression; and the flags for
more and for less of the log are not mixed. -/
structure AdmissibleChoices (items : List Item) : Prop where
  parser : valuesOf .parser items = [] ∨
    ∃ name strategy, valuesOf .parser items = [some name] ∧ strategyNamed? name = some strategy ∧
      .flag .postfixInput ∉ items
  verbosity : .flag .verbose ∉ items ∨ .flag .quiet ∉ items

/-- Both orders are the same, but for the parser of an infix expression. -/
def Order.Kindred (order order' : Order) : Prop :=
  order = order' ∨
    ∃ strategy strategy', order = .infixOrder strategy ∧ order' = .infixOrder strategy'

theorem filterMap_essentials {α : Type} {f : Item → Option α} (items : List Item)
    (h : ∀ item, item.isChoice → f item = none) :
    (essentials items).filterMap f = items.filterMap f := by
  rw [essentials, List.filterMap_filter]
  congr 1
  funext item
  cases hchoice : item.isChoice with
  | true => exact (h item hchoice).symm
  | false => rfl

theorem chosenHeight_essentials (items : List Item) :
    chosenHeight (essentials items) = chosenHeight items := by
  have hvalues : valuesOf .simplify (essentials items) = valuesOf .simplify items := by
    apply filterMap_essentials
    intro item hchoice
    cases item with
    | option option value =>
        cases option with
        | parser => rfl
        | simplify => cases hchoice
    | _ => rfl
  rw [chosenHeight, chosenHeight, valueOf?, valueOf?, hvalues]

theorem occurrences_essentials {flag : Flag} (h : (Item.flag flag).isChoice = false)
    (items : List Item) : occurrences flag (essentials items) = occurrences flag items := by
  rw [occurrences, occurrences, essentials, List.count_filter (by rw [h]; rfl)]

theorem findSome?_free?_essentials (items : List Item) :
    (essentials items).findSome? Item.free? = items.findSome? Item.free? := by
  rw [← List.head?_filterMap, ← List.head?_filterMap, filterMap_essentials]
  intro item hchoice
  cases item with
  | free text => cases hchoice
  | _ => rfl

theorem decisiveItem_essentials (hasExpression : Bool) (items : List Item) :
    decisiveItem hasExpression (essentials items) = decisiveItem hasExpression items := by
  induction items generalizing hasExpression with
  | nil => rfl
  | cons item items ih =>
      rw [essentials, List.filter_cons]
      split
      next =>
        cases item with
        | free text =>
            simp only [decisiveItem]
            split
            next => rfl
            next => exact ih true
        | flag flag => exact ih hasExpression
        | option option value => exact ih hasExpression
        | _ => rfl
      next hchoice =>
        cases item with
        | flag flag => exact ih hasExpression
        | option option value => exact ih hasExpression
        | _ => exact absurd rfl hchoice

theorem ofItems_eq_ok_iff {items : List Item} {options : Options} :
    Options.ofItems items = .ok options ↔
      ∃ order height trees logLevel expression, chosenOrder items = .ok order ∧
        chosenHeight items = .ok height ∧ occurrences .tree items = .ok trees ∧
        chosenLogLevel items = .ok logLevel ∧ items.findSome? Item.free? = some expression ∧
        options =
          { expression, order, simplifyTo := height, showTree := trees ≠ 0, logLevel } := by
  constructor
  · intro h
    obtain ⟨order, horder, h⟩ := Traced.bind_eq_ok_iff.mp h
    obtain ⟨height, hheight, h⟩ := Traced.bind_eq_ok_iff.mp h
    obtain ⟨trees, htrees, h⟩ := Traced.bind_eq_ok_iff.mp h
    obtain ⟨logLevel, hlogLevel, h⟩ := Traced.bind_eq_ok_iff.mp h
    split at h
    next => cases h
    next expression hexpression =>
      cases h
      exact ⟨order, height, trees, logLevel, expression, horder, hheight, htrees, hlogLevel,
        hexpression, rfl⟩
  · rintro ⟨order, height, trees, logLevel, expression, horder, hheight, htrees, hlogLevel,
      hexpression, rfl⟩
    refine Traced.bind_eq_ok_iff.mpr ⟨order, horder, ?_⟩
    refine Traced.bind_eq_ok_iff.mpr ⟨height, hheight, ?_⟩
    refine Traced.bind_eq_ok_iff.mpr ⟨trees, htrees, ?_⟩
    refine Traced.bind_eq_ok_iff.mpr ⟨logLevel, hlogLevel, ?_⟩
    rw [hexpression]
    rfl

theorem decisiveItem_ne_run {hasExpression : Bool} {items : List Item} {options : Options} :
    decisiveItem hasExpression items ≠ .ok (some (.run options)) := by
  induction items generalizing hasExpression with
  | nil => simp [decisiveItem]
  | cons item items ih =>
      cases item with
      | free text =>
          rw [decisiveItem]
          split
          next => simp
          next => exact ih
      | flag flag => exact ih
      | option option value => exact ih
      | _ => simp [decisiveItem]

theorem ofArguments_eq_run_iff {arguments : List String} {options : Options} :
    Request.ofArguments arguments = .ok (.run options) ↔
      decisiveItem false (readItems none arguments) = .ok none ∧
        Options.ofItems (readItems none arguments) = .ok options := by
  have hparts : Request.ofArguments arguments =
      (decisiveItem false (readItems none arguments)).bind fun request? =>
        request?.elim
          ((Options.ofItems (readItems none arguments)).bind fun options => .ok (.run options))
          .ok := by
    rw [Request.ofArguments]
    refine congrArg _ (funext fun request? => ?_)
    cases request? <;> rfl
  rw [hparts, Traced.bind_eq_ok_iff]
  constructor
  · rintro ⟨_ | request, hdecisive, h⟩
    · obtain ⟨options', hoptions, h⟩ := Traced.bind_eq_ok_iff.mp h
      cases h
      exact ⟨hdecisive, hoptions⟩
    · cases h
      exact absurd hdecisive decisiveItem_ne_run
  · rintro ⟨hdecisive, hoptions⟩
    refine ⟨none, hdecisive, ?_⟩
    simp only [hoptions]
    rfl

theorem chosenOrder_eq_bind (items : List Item) :
    chosenOrder items =
      (chosenStrategy items).bind fun strategy? =>
        (occurrences .postfixInput items).bind fun postfixFlags =>
          match strategy?, postfixFlags with
          | none, 0 => .ok (.infixOrder .recursiveDescent)
          | some strategy, 0 => .ok (.infixOrder strategy)
          | none, _ => .ok .postfixOrder
          | some _, _ => .error .conflictingOrder := rfl

theorem kind_of_chosenOrder {items : List Item} {order : Order}
    (h : chosenOrder items = .ok order) :
    ∃ postfixFlags, occurrences .postfixInput items = .ok postfixFlags ∧
      (postfixFlags = 0 ∧ (∃ strategy, order = .infixOrder strategy) ∨
        postfixFlags ≠ 0 ∧ order = .postfixOrder) := by
  rw [chosenOrder_eq_bind] at h
  simp only [Traced.bind_eq_ok_iff] at h
  obtain ⟨strategy?, -, postfixFlags, hflags, h⟩ := h
  refine ⟨postfixFlags, hflags, ?_⟩
  cases postfixFlags with
  | zero =>
      refine .inl ⟨rfl, ?_⟩
      cases strategy? with
      | none =>
          cases h
          exact ⟨_, rfl⟩
      | some strategy =>
          cases h
          exact ⟨strategy, rfl⟩
  | succ n =>
      refine .inr ⟨Nat.succ_ne_zero n, ?_⟩
      cases strategy? with
      | none =>
          cases h
          rfl
      | some strategy => cases h

namespace AdmissibleChoices

variable {items : List Item}

theorem exists_chosenOrder (h : AdmissibleChoices items) {postfixFlags : Nat}
    (hflags : occurrences .postfixInput items = .ok postfixFlags) :
    ∃ order, chosenOrder items = .ok order := by
  rw [chosenOrder_eq_bind, hflags]
  obtain hnone | ⟨name, strategy, hname, hstrategy, habsent⟩ := h.parser
  · have hchosen : chosenStrategy items = .ok none := by
      rw [chosenStrategy, valueOf?, hnone]
      rfl
    rw [hchosen]
    cases postfixFlags with
    | zero => exact ⟨_, rfl⟩
    | succ n => exact ⟨_, rfl⟩
  · have hchosen : chosenStrategy items = .ok (some strategy) := by
      rw [chosenStrategy, valueOf?, hname]
      simp only [bind, Except.bind, hstrategy]
      rfl
    rw [occurrences, List.count_eq_zero.mpr habsent] at hflags
    cases hflags
    rw [hchosen]
    exact ⟨_, rfl⟩

theorem exists_chosenLogLevel (h : AdmissibleChoices items) :
    ∃ logLevel, chosenLogLevel items = .ok logLevel := by
  have hcount : ¬(items.count (.flag .verbose) ≠ 0 ∧ items.count (.flag .quiet) ≠ 0) := by
    rintro ⟨hverbose, hquiet⟩
    obtain hnone | hnone := h.verbosity
    · exact hverbose (List.count_eq_zero.mpr hnone)
    · exact hquiet (List.count_eq_zero.mpr hnone)
  have hverbose : occurrences .verbose items = .ok (items.count (.flag .verbose)) := by
    simp [occurrences, Flag.isRepeatable]
  have hquiet : occurrences .quiet items = .ok (items.count (.flag .quiet)) := by
    simp [occurrences, Flag.isRepeatable]
  rw [chosenLogLevel, hverbose, hquiet]
  simp only [bind, Except.bind, if_neg hcount]
  exact ⟨_, rfl⟩

end AdmissibleChoices

theorem kindred_of_essentials_eq {items items' : List Item} {order order' : Order}
    (hsame : essentials items = essentials items') (h : chosenOrder items = .ok order)
    (h' : chosenOrder items' = .ok order') : order.Kindred order' := by
  obtain ⟨flags, hflags, hkind⟩ := kind_of_chosenOrder h
  obtain ⟨flags', hflags', hkind'⟩ := kind_of_chosenOrder h'
  rw [← occurrences_essentials rfl] at hflags hflags'
  rw [hsame, hflags'] at hflags
  cases hflags
  obtain ⟨hzero, strategy, rfl⟩ | ⟨hpos, rfl⟩ := hkind
  · obtain ⟨-, strategy', rfl⟩ | ⟨hpos, -⟩ := hkind'
    · exact .inr ⟨strategy, strategy', rfl, rfl⟩
    · exact absurd hzero hpos
  · obtain ⟨hzero, -⟩ | ⟨-, rfl⟩ := hkind'
    · exact absurd hzero hpos
    · exact .inl rfl

/-- Another acceptable choice of a parser and a verbosity gives options that agree in all else. -/
theorem exists_options_of_essentials_eq {arguments arguments' : List String} {options : Options}
    (h : Request.ofArguments arguments = .ok (.run options))
    (hsame : essentials (readItems none arguments) = essentials (readItems none arguments'))
    (hchoices : AdmissibleChoices (readItems none arguments')) :
    ∃ options', Request.ofArguments arguments' = .ok (.run options') ∧
      options.expression = options'.expression ∧ options.simplifyTo = options'.simplifyTo ∧
      options.showTree = options'.showTree ∧ options.order.Kindred options'.order := by
  obtain ⟨hdecisive, hoptions⟩ := ofArguments_eq_run_iff.mp h
  obtain ⟨order, height, trees, logLevel, expression, horder, hheight, htrees, -, hexpression,
    rfl⟩ := ofItems_eq_ok_iff.mp hoptions
  obtain ⟨postfixFlags, hflags, -⟩ := kind_of_chosenOrder horder
  rw [← occurrences_essentials rfl, hsame, occurrences_essentials rfl] at hflags
  obtain ⟨order', horder'⟩ := hchoices.exists_chosenOrder hflags
  obtain ⟨logLevel', hlogLevel'⟩ := hchoices.exists_chosenLogLevel
  rw [← decisiveItem_essentials, hsame, decisiveItem_essentials] at hdecisive
  rw [← chosenHeight_essentials, hsame, chosenHeight_essentials] at hheight
  rw [← occurrences_essentials rfl, hsame, occurrences_essentials rfl] at htrees
  rw [← findSome?_free?_essentials, hsame, findSome?_free?_essentials] at hexpression
  refine ⟨_, ofArguments_eq_run_iff.mpr ⟨hdecisive, ofItems_eq_ok_iff.mpr
    ⟨order', height, trees, logLevel', expression, horder', hheight, htrees, hlogLevel',
      hexpression, rfl⟩⟩, rfl, rfl, rfl, ?_⟩
  exact kindred_of_essentials_eq hsame horder horder'

end InfixArithmetic.Cli
