import InfixArithmetic.Tree

namespace InfixArithmetic

inductive Command where
  | reset (strategy : Strategy)
  | readPostfix (text : String)
  | parse (text : String)
  | simplify (height : Value)
  | evaluate
  | draw
  | root
  | copyTo (name : String)
  | equals (name : String)
deriving DecidableEq, Repr

inductive Reply where
  | done
  | parseFailed (error : ParseError)
  | evaluationFailed (error : EvalError)
  | value (value : Value)
  | drawing (text : String)
  | root (root : Option Expr)
  | truth (answer : Bool)
deriving DecidableEq, Repr

abbrev Session := List (String × Tree)

namespace Session

/-- The tree under a name, an empty one if the name has not been used. -/
def tree (session : Session) (name : String) : Tree :=
  (session.lookup name).getD {}

/-- Puts a tree under a name, in place of the one that was there. -/
def store (session : Session) (name : String) (tree : Tree) : Session :=
  (name, tree) :: session.filter fun entry => entry.1 ≠ name

/-- What a command makes of the tree it is given to, and the reply. The other trees are those of
`others`. -/
def run (others : Session) (tree : Tree) : Command → Tree × Reply
  | .reset strategy => ({ strategy }, .done)
  | .readPostfix text =>
      match (Tree.ofPostfix text).outcome with
      | .ok tree' => (tree', .done)
      | .error error => (tree, .parseFailed error)
  | .parse text =>
      let attempt := tree.parse text
      match attempt.outcome with
      | .ok () => (attempt.tree, .done)
      | .error error => (attempt.tree, .parseFailed error)
  | .simplify height =>
      let attempt := tree.simplify height
      match attempt.outcome with
      | .ok () => (attempt.tree, .done)
      | .error error => (attempt.tree, .evaluationFailed error)
  | .evaluate =>
      match tree.evaluate with
      | .ok value => (tree, .value value)
      | .error error => (tree, .evaluationFailed error)
  | .draw => (tree, .drawing tree.drawing)
  | .root => (tree, .root tree.root)
  | .copyTo _ => (tree, .done)
  | .equals name => (tree, .truth (tree = others.tree name))

/-- Carries out a command on the tree under a name. While the command runs, that tree itself is
not among the others. -/
def step (session : Session) (name : String) (command : Command) : Session × Reply :=
  let others : Session := session.filter fun entry => entry.1 ≠ name
  let (tree, reply) := run others (session.tree name) command
  let others : Session :=
    match command with
    | .copyTo copy => others.store copy tree
    | _ => others
  (others.store name tree, reply)

end Session

end InfixArithmetic
