import InfixArithmetic.Cli.Arguments
import InfixArithmetic.Event
import InfixArithmetic.Value.Decimal

/-!
The options of a program run, as given by its command line, and the reasons for refusing one.
Assumed of the library that reads arguments:

* a request for the version or for help, an unknown flag and a second free argument decide as soon
  as they are reached, and everything else is checked once all arguments have been read;
* an option or a flag is given at most once, apart from the flags that count the verbosity;
* `--postfix-input` excludes a parser that is named, not one that is taken by default, and
  `--verbose` excludes `--quiet`, however often either of them is given;
* the verbosity is counted in eight bits, and from its value follows the level of the log.

The wording of its messages and of its help text is no part of this development.
-/

namespace InfixArithmetic.Cli

inductive Order where
  | infixOrder (strategy : Strategy)
  | postfixOrder
deriving DecidableEq, Repr

structure Options where
  expression : String
  order : Order := .infixOrder .recursiveDescent
  simplifyTo : Option Value := none
  showTree : Bool := false
  /-- The least important level of the log that is shown, if the log is shown at all. -/
  logLevel : Option LogLevel := some .error
deriving DecidableEq, Repr

inductive Request where
  | run (options : Options)
  | version
  | help
deriving DecidableEq, Repr

inductive UsageError where
  | unknownArgument (argument : String)
  | extraArgument (argument : String)
  | valueLacking (option : ValueOption)
  | repeatedOption (option : ValueOption)
  | repeatedFlag (flag : Flag)
  | invalidParser (name : String)
  | invalidHeight (text : String)
  | conflictingOrder
  | conflictingVerbosity
  | expressionLacking
deriving DecidableEq, Repr

def Flag.isRepeatable : Flag → Bool
  | verbose | quiet => true
  | tree | postfixInput => false

def strategyNamed? : String → Option Strategy
  | "descent" => some .recursiveDescent
  | "shunting-yard" => some .shuntingYard
  | _ => none

/-- How much output is asked for: every `--verbose` counts up from zero and every `--quiet` counts
down. The count has eight bits with a sign and wraps around. -/
def verbosity (verbose quiet : Nat) : Int :=
  Int.bmod ((verbose : Int) - quiet) 256

/-- The least important level of the log that is shown at a verbosity. Below zero no log is shown,
and from four on all of it. -/
def levelOfVerbosity : Int → Option LogLevel
  | .negSucc _ => none
  | 0 => some .error
  | 1 => some .warn
  | 2 => some .info
  | 3 => some .debug
  | .ofNat _ => some .trace

def valuesOf (option : ValueOption) (items : List Item) : List (Option String) :=
  items.filterMap fun
    | .option other value => if other = option then some value else none
    | _ => none

def valueOf? (option : ValueOption) (items : List Item) : Except UsageError (Option String) :=
  match valuesOf option items with
  | [] => .ok none
  | [some value] => .ok (some value)
  | [none] => .error (.valueLacking option)
  | _ => .error (.repeatedOption option)

def occurrences (flag : Flag) (items : List Item) : Except UsageError Nat :=
  let count := items.count (.flag flag)
  if 1 < count ∧ ¬flag.isRepeatable then .error (.repeatedFlag flag) else .ok count

def chosenStrategy (items : List Item) : Except UsageError (Option Strategy) := do
  match ← valueOf? .parser items with
  | none => return none
  | some name =>
      match strategyNamed? name with
      | some strategy => return some strategy
      | none => throw (.invalidParser name)

def chosenHeight (items : List Item) : Except UsageError (Option Value) := do
  match ← valueOf? .simplify items with
  | none => return none
  | some text =>
      match Value.ofDecimal? text.toList with
      | some height => return some height
      | none => throw (.invalidHeight text)

def chosenOrder (items : List Item) : Except UsageError Order := do
  let strategy? ← chosenStrategy items
  let postfixFlags ← occurrences .postfixInput items
  match strategy?, postfixFlags with
  | none, 0 => return .infixOrder .recursiveDescent
  | some strategy, 0 => return .infixOrder strategy
  | none, _ => return .postfixOrder
  | some _, _ => throw .conflictingOrder

def chosenLogLevel (items : List Item) : Except UsageError (Option LogLevel) := do
  let verbose ← occurrences .verbose items
  let quiet ← occurrences .quiet items
  if verbose ≠ 0 ∧ quiet ≠ 0 then
    throw .conflictingVerbosity
  else
    return levelOfVerbosity (verbosity verbose quiet)

def Item.free? : Item → Option String
  | .free text => some text
  | _ => none

def Options.ofItems (items : List Item) : Except UsageError Options := do
  let order ← chosenOrder items
  let simplifyTo ← chosenHeight items
  let trees ← occurrences .tree items
  let logLevel ← chosenLogLevel items
  match items.findSome? Item.free? with
  | none => throw .expressionLacking
  | some expression =>
      return { expression, order, simplifyTo, showTree := trees ≠ 0, logLevel }

/-- Looks for an item that decides the request before all options are weighed together: a request
for the version or for help, something unknown, or a second free argument. -/
def decisiveItem (hasExpression : Bool) : List Item → Except UsageError (Option Request)
  | [] => .ok none
  | .version :: _ => .ok (some .version)
  | .help :: _ => .ok (some .help)
  | .unknown argument :: _ => .error (.unknownArgument (String.ofList argument))
  | .free text :: rest =>
      if hasExpression then .error (.extraArgument text) else decisiveItem true rest
  | .flag _ :: rest | .option _ _ :: rest => decisiveItem hasExpression rest

def Request.ofArguments (arguments : List String) : Except UsageError Request := do
  let items := readItems none arguments
  match ← decisiveItem false items with
  | some request => return request
  | none => return .run (← Options.ofItems items)

end InfixArithmetic.Cli
