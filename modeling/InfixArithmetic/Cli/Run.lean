import InfixArithmetic.Cli.Options
import InfixArithmetic.Failure
import InfixArithmetic.Tree

namespace InfixArithmetic

namespace Tree

/-- The line on the value of a tree, if it has one. -/
def valueLine (tree : Tree) : String :=
  match tree.evaluate with
  | .ok value => "value:   " ++ value.decimal ++ "\n"
  | .error _ => ""

def evaluationFailure (tree : Tree) : Option Failure :=
  match tree.evaluate with
  | .ok _ => none
  | .error error => some ⟨.evaluateTree, .evaluation error⟩

end Tree

namespace Cli

structure Report where
  /-- The events shown in the log. -/
  logged : List Event
  stdout : String
  failure : Option Failure

namespace Report

def exitCode (report : Report) : Nat :=
  if report.failure.isSome then 1 else 0

def logLines (report : Report) : List String :=
  report.logged.map fun event => event.level.name ++ " " ++ event.message

/-- The lines on the failure of a run, none if it has not failed. -/
def failureLines (report : Report) : List String :=
  match report.failure with
  | none => []
  | some failure => failure.report

def stderr (report : Report) : List String :=
  report.logLines ++ report.failureLines

end Report

namespace Options

def shows (options : Options) (event : Event) : Bool :=
  options.logLevel.any fun least => event.level.rank ≤ least.rank

def readTree (options : Options) : Traced Failure Tree :=
  match options.order with
  | .infixOrder strategy =>
      (Tree.parse { strategy } options.expression).result.mapError fun error =>
        ⟨.parseText options.expression, .parse error⟩
  | .postfixOrder =>
      (Tree.ofPostfix options.expression).mapError fun error =>
        ⟨.readPostfix options.expression, .parse error⟩

def prepareTree (options : Options) : Traced Failure Tree := do
  let tree ← options.readTree
  Traced.log (.heightParsed tree.height)
  match options.simplifyTo with
  | none => return tree
  | some height =>
      let simplified ← (tree.simplify height).result.mapError fun error =>
        ⟨.simplifyTree height, .evaluation error⟩
      Traced.log (.heightSimplified simplified.height)
      return simplified

/-- What is printed of a tree before it is evaluated. -/
def notations (options : Options) (tree : Tree) : String :=
  (if options.showTree then tree.drawing else "") ++
    "prefix:  " ++ tree.prefixText ++ "\n" ++
    "postfix: " ++ tree.postfixText ++ "\n"

/-- What has been printed before a failure stays printed. -/
def run (options : Options) : Report :=
  let prepared := options.prepareTree
  let logged := prepared.events.filter options.shows
  match prepared.outcome with
  | .error failure => { logged, stdout := "", failure := some failure }
  | .ok tree =>
      { logged
        stdout := options.notations tree ++ tree.valueLine
        failure := tree.evaluationFailure }

end Options

inductive Answer where
  | report (run : Report)
  | version
  | help
  | refusal (error : UsageError)

namespace Answer

def exitCode : Answer → Nat
  | report run => run.exitCode
  | version | help => 0
  | refusal _ => 2

/-- What the program prints itself. Help and the message of a refusal are printed for it. -/
def stdout : Answer → String
  | report run => run.stdout
  | version => "arithmetic-tree-cli 0.1.0\n"
  | help | refusal _ => ""

def stderr : Answer → List String
  | report run => run.stderr
  | version | help | refusal _ => []

end Answer

def answer (arguments : List String) : Answer :=
  match Request.ofArguments arguments with
  | .ok (.run options) => .report options.run
  | .ok .version => .version
  | .ok .help => .help
  | .error error => .refusal error

end Cli

end InfixArithmetic
