import InfixArithmetic.Expr.Collapse
import InfixArithmetic.Expr.Drawing
import InfixArithmetic.Strategy.Parse
import InfixArithmetic.Tokenize

namespace InfixArithmetic

/-- An expression, if one has been read, and the strategy for reading the next one. -/
structure Tree where
  root : Option Expr := none
  strategy : Strategy := .recursiveDescent
deriving DecidableEq, Repr

/-- An attempt to change a tree, with the tree that it leaves behind. -/
structure Attempt (ε : Type) extends Traced ε Unit where
  tree : Tree

/-- The tree after an attempt that has to succeed. -/
def Attempt.result {ε : Type} (attempt : Attempt ε) : Traced ε Tree := do
  attempt.toTraced
  return attempt.tree

theorem Attempt.outcome_result {ε : Type} (attempt : Attempt ε) :
    attempt.result.outcome = attempt.outcome.bind fun _ => .ok attempt.tree :=
  Traced.outcome_bind attempt.toTraced _

theorem Attempt.outcome_result_eq_ok_iff {ε : Type} {attempt : Attempt ε} {tree : Tree} :
    attempt.result.outcome = .ok tree ↔ attempt.outcome = .ok () ∧ attempt.tree = tree := by
  rw [outcome_result, Traced.bind_eq_ok_iff]
  constructor
  · rintro ⟨_, houtcome, htree⟩
    exact ⟨houtcome, Except.ok.inj htree⟩
  · rintro ⟨houtcome, htree⟩
    exact ⟨(), houtcome, congrArg Except.ok htree⟩

namespace Tree

instance : Inhabited Tree := ⟨{}⟩

/-- Reads an infix expression in place of the one that is there. -/
def parse (tree : Tree) (text : String) : Attempt ParseError :=
  let reading : Traced ParseError Expr := do
    let tokens ← tokenize text
    tree.strategy.parse tokens
  match reading.outcome with
  | .error error => { events := reading.events, outcome := .error error, tree }
  | .ok root =>
      { events := reading.events, outcome := .ok (), tree := { tree with root := some root } }

/-- Reads a postfix expression into a new tree, which gets the default strategy. -/
def ofPostfix (text : String) : Traced ParseError Tree := do
  let tokens ← tokenize text
  let root ← Traced.ofExcept (Expr.ofPostfix tokens)
  Traced.log (.builtFromPostfix root text)
  return { root := some root }

def evaluate (tree : Tree) : Except EvalError Value :=
  match tree.root with
  | none => .ok 0
  | some root => root.evaluate

/-- Replaces all subtrees rooted at a given depth by their values. -/
def simplify (height : Value) (tree : Tree) : Attempt EvalError :=
  if height.toInt < 0 then
    { events := [], outcome := .error (.negativeHeight height), tree }
  else
    match tree.root with
    | none => { events := [], outcome := .ok (), tree }
    | some root =>
        let depth := height.toInt.toNat
        -- A collapse that stops early has replaced subtrees already, so it is made on a copy.
        let copy := root.collapse depth
        match copy.failure with
        | some error => { events := [], outcome := .error error, tree }
        | none =>
            { events := [.simplified root depth copy.expr]
              outcome := .ok ()
              tree := { tree with root := some copy.expr } }

def isEmpty (tree : Tree) : Bool :=
  tree.root.isNone

def height (tree : Tree) : Nat :=
  match tree.root with
  | none => 0
  | some root => root.height

def prefixText (tree : Tree) : String :=
  match tree.root with
  | none => ""
  | some root => Token.joinText root.toPrefix

def postfixText (tree : Tree) : String :=
  match tree.root with
  | none => ""
  | some root => Token.joinText root.toPostfix

def drawing (tree : Tree) : String :=
  match tree.root with
  | none => ""
  | some root => root.drawing

end Tree

end InfixArithmetic
