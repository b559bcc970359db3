import InfixArithmetic.Error
import InfixArithmetic.Text.Quoted

/-!
Failures as they are reported to a user: what was being done, and why it could not be done. The form
of a report is that of a library for errors. Assumed of it: the report has the outermost statement
after `Error: `, an empty line, the line `Caused by:` and then all further statements, indented by
four columns and, if there are several of them, numbered from zero.
-/

namespace InfixArithmetic

inductive Activity where
  | parseText (text : String)
  | readPostfix (text : String)
  | evaluateText (text : String)
  | simplifyText (text : String)
  | evaluateTree
  | simplifyTree (height : Value)
deriving DecidableEq, Repr

def Activity.message : Activity → String
  | parseText text => "could not parse expression " ++ Text.quote text
  | readPostfix text => "could not build tree from postfix " ++ Text.quote text
  | evaluateText text => "could not evaluate expression " ++ Text.quote text
  | simplifyText text => "could not simplify expression " ++ Text.quote text
  | evaluateTree => "could not evaluate expression"
  | simplifyTree height => "could not simplify to height " ++ height.decimal

inductive Cause where
  | parse (error : ParseError)
  | evaluation (error : EvalError)
deriving DecidableEq, Repr

/-- The reports of a cause, from the general one to the particular one. -/
def Cause.messages : Cause → List String
  | parse (.illFormed error) => [(ParseError.illFormed error).message, error.detail]
  | parse error => [error.message]
  | evaluation error => [error.message]

structure Failure where
  activity : Activity
  cause : Cause
deriving DecidableEq, Repr

namespace Failure

/-- All statements about a failure, each explained by the next one. -/
def chain (failure : Failure) : List String :=
  failure.activity.message :: failure.cause.messages

/-- The lines of the report on a failure. Several causes are numbered. -/
def report (failure : Failure) : List String :=
  let causes :=
    match failure.cause.messages with
    | [cause] => ["    " ++ cause]
    | causes => causes.mapIdx fun index cause => "    " ++ index.repr ++ ": " ++ cause
  ["Error: " ++ failure.activity.message, "", "Caused by:"] ++ causes

end Failure

end InfixArithmetic
