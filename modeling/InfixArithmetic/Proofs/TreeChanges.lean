import InfixArithmetic.Session
import InfixArithmetic.Proofs.PartialCollapse

namespace InfixArithmetic

/-- A collapse to the least of several heights, or no collapse if there are none. -/
def Expr.collapseToLeast (e : Expr) (heights : List Value) : Collapsed :=
  match (heights.map fun height => height.toInt.toNat).min? with
  | none => ⟨e, none⟩
  | some height => e.collapse height

theorem Expr.collapse_collapseToLeast {e : Expr} {heights : List Value} {height : Value}
    (h : (e.collapseToLeast heights).failure = none)
    (h' : ((e.collapseToLeast heights).expr.collapse height.toInt.toNat).failure = none) :
    (e.collapseToLeast heights).expr.collapse height.toInt.toNat =
      e.collapseToLeast (heights ++ [height]) := by
  cases heights with
  | nil => rfl
  | cons first rest =>
      have hleast : e.collapseToLeast (first :: rest ++ [height]) =
          e.collapse (min ((rest.map fun height => height.toInt.toNat).foldl min
            first.toInt.toNat) height.toInt.toNat) := by
        rw [collapseToLeast, List.cons_append, List.map_cons, List.map_append, List.min?_cons',
          List.foldl_append]
        rfl
      rw [hleast]
      exact collapse_collapse h h'

/-- A request that changes a tree. -/
inductive Change where
  | parse (text : String)
  | simplify (height : Value)
deriving DecidableEq, Repr

def Change.command : Change → Command
  | parse text => .parse text
  | simplify height => .simplify height

namespace Tree

/-- The tree after a change was asked for, whether or not it succeeded. -/
def changed (tree : Tree) (request : Change) : Tree :=
  (Session.run [] tree request.command).1

def Accepts (tree : Tree) (request : Change) : Prop :=
  (Session.run [] tree request.command).2 = .done

instance (tree : Tree) (request : Change) : Decidable (tree.Accepts request) :=
  inferInstanceAs (Decidable (_ = _))

def changedByAll (tree : Tree) (requests : List Change) : Tree :=
  requests.foldl changed tree

/-- The changes that succeed when all are asked for in turn. -/
def accepted (tree : Tree) : List Change → List Change
  | [] => []
  | request :: rest =>
      if tree.Accepts request then
        request :: (tree.changed request).accepted rest
      else
        (tree.changed request).accepted rest

/-- The strategy reads the text as this expression. -/
def Reads (strategy : Strategy) (text : String) (e : Expr) : Prop :=
  ∃ tokens, (tokenize text).outcome = .ok tokens ∧ (strategy.parse tokens).outcome = .ok e

/-- The effect of a change that succeeds. -/
inductive Step : Tree → Change → Tree → Prop where
  | parse {tree : Tree} {text : String} {e : Expr} :
      Reads tree.strategy text e →
      Step tree (.parse text) { tree with root := some e }
  | simplifyEmpty {tree : Tree} {height : Value} :
      tree.root = none → Step tree (.simplify height) tree
  | simplify {tree : Tree} {height : Value} {e : Expr} :
      tree.root = some e → 0 ≤ height.toInt →
      (e.collapse height.toInt.toNat).failure = none →
      Step tree (.simplify height)
        { tree with root := some (e.collapse height.toInt.toNat).expr }

theorem outcome_result_parse (tree : Tree) (text : String) :
    (tree.parse text).result.outcome = (tokenize text).outcome.bind fun tokens =>
      (tree.strategy.parse tokens).outcome.bind fun e => .ok { tree with root := some e } := by
  rw [Attempt.outcome_result, parse, Traced.outcome_bind]
  cases (tokenize text).outcome with
  | error error => rfl
  | ok tokens =>
      simp only [Except.bind]
      cases (tree.strategy.parse tokens).outcome <;> rfl

theorem step_of_outcome_parse {tree tree' : Tree} {text : String}
    (h : (tree.parse text).result.outcome = .ok tree') : Step tree (.parse text) tree' := by
  rw [outcome_result_parse, Traced.bind_eq_ok_iff] at h
  obtain ⟨tokens, htokens, h⟩ := h
  rw [Traced.bind_eq_ok_iff] at h
  obtain ⟨e, he, h⟩ := h
  cases h
  exact .parse ⟨tokens, htokens, he⟩

theorem tree_parse_of_error {tree : Tree} {text : String} {error : ParseError}
    (h : (tree.parse text).outcome = .error error) : (tree.parse text).tree = tree := by
  rw [parse] at h ⊢
  cases hreading : (tokenize text >>= tree.strategy.parse).outcome with
  | error error' => rfl
  | ok e =>
      rw [hreading] at h
      cases h

theorem step_of_outcome_simplify {tree tree' : Tree} {height : Value}
    (h : (tree.simplify height).result.outcome = .ok tree') :
    Step tree (.simplify height) tree' := by
  rw [simplify] at h
  split at h
  · cases h
  next hheight =>
    split at h
    next hroot =>
      cases h
      exact .simplifyEmpty hroot
    next root hroot =>
      simp only at h
      split at h
      · cases h
      next hok =>
        cases h
        exact .simplify hroot (Int.not_lt.mp hheight) hok

theorem tree_simplify_of_error {tree : Tree} {height : Value} {error : EvalError}
    (h : (tree.simplify height).outcome = .error error) :
    (tree.simplify height).tree = tree := by
  rw [simplify] at h ⊢
  split
  next => rfl
  next hheight =>
    rw [if_neg hheight] at h
    cases hroot : tree.root with
    | none => rfl
    | some root =>
        rw [hroot] at h
        simp only at h ⊢
        split
        next => rfl
        next hok =>
          rw [hok] at h
          cases h

/-- A change succeeds with its effect or fails without any. -/
theorem step_or_unchanged (tree : Tree) (request : Change) :
    tree.Accepts request ∧ Step tree request (tree.changed request) ∨
      ¬tree.Accepts request ∧ tree.changed request = tree := by
  cases request with
  | parse text =>
      simp only [Accepts, changed, Change.command, Session.run]
      cases houtcome : (tree.parse text).outcome with
      | ok _ =>
          have hresult := Attempt.outcome_result_eq_ok_iff.mpr ⟨houtcome, rfl⟩
          exact .inl ⟨rfl, step_of_outcome_parse hresult⟩
      | error error => exact .inr ⟨nofun, tree_parse_of_error houtcome⟩
  | simplify height =>
      simp only [Accepts, changed, Change.command, Session.run]
      cases houtcome : (tree.simplify height).outcome with
      | ok _ =>
          have hresult := Attempt.outcome_result_eq_ok_iff.mpr ⟨houtcome, rfl⟩
          exact .inl ⟨rfl, step_of_outcome_simplify hresult⟩
      | error error => exact .inr ⟨nofun, tree_simplify_of_error houtcome⟩

/-- The tree is told by the changes that have succeeded. -/
inductive Told (strategy : Strategy) : List Change → Tree → Prop where
  | empty (heights : List Value) :
      Told strategy (heights.map .simplify) { root := none, strategy }
  | read {text : String} {e : Expr} (before : List Change) (heights : List Value) :
      Reads strategy text e → (∀ height ∈ heights, 0 ≤ height.toInt) →
      (e.collapseToLeast heights).failure = none →
      Told strategy (before ++ .parse text :: heights.map .simplify)
        { root := some (e.collapseToLeast heights).expr, strategy }

theorem map_simplify_concat (heights : List Value) (height : Value) :
    heights.map Change.simplify ++ [.simplify height] =
      (heights ++ [height]).map Change.simplify := by
  rw [List.map_append, List.map_singleton]

namespace Told

variable {strategy : Strategy} {done : List Change} {tree tree' : Tree} {request : Change}

theorem strategy_eq (h : Told strategy done tree) : tree.strategy = strategy := by
  cases h <;> rfl

theorem root_eq_none_iff (h : Told strategy done tree) :
    tree.root = none ↔ ∀ text, .parse text ∉ done := by
  cases h with
  | empty heights => simp
  | @read text e before heights _ _ _ =>
      have hmem : Change.parse text ∈ before ++ .parse text :: heights.map .simplify := by simp
      exact iff_of_false (Option.some_ne_none _) fun hnone => hnone text hmem

theorem eq_none_or_exists_read (h : Told strategy done tree) :
    tree.root = none ∨ ∃ before text, ∃ heights : List Value, ∃ tokens e,
      done = before ++ .parse text :: heights.map .simplify ∧
      (tokenize text).outcome = .ok tokens ∧ (strategy.parse tokens).outcome = .ok e ∧
      (∀ height ∈ heights, 0 ≤ height.toInt) ∧
      (e.collapseToLeast heights).failure = none ∧
      tree.root = some (e.collapseToLeast heights).expr := by
  cases h with
  | empty heights => exact .inl rfl
  | @read text e before heights hreads hheights hok =>
      obtain ⟨tokens, htokens, he⟩ := hreads
      exact .inr ⟨before, text, heights, tokens, e, rfl, htokens, he, hheights, hok, rfl⟩

theorem step (h : Told strategy done tree) (k : Step tree request tree') :
    Told strategy (done ++ [request]) tree' := by
  cases k with
  | parse hreads =>
      cases h with
      | empty heights => exact .read _ [] hreads (List.forall_mem_nil _) rfl
      | read before heights _ _ _ => exact .read _ [] hreads (List.forall_mem_nil _) rfl
  | simplifyEmpty hroot =>
      cases h with
      | empty heights =>
          rw [map_simplify_concat]
          exact .empty _
      | read => cases hroot
  | @simplify height _ hroot hheight hok' =>
      cases h with
      | empty heights => cases hroot
      | @read text e before heights hreads hheights hok =>
          cases hroot
          have hcollapse := Expr.collapse_collapseToLeast hok hok'
          rw [hcollapse] at hok' ⊢
          rw [List.append_assoc, List.cons_append, map_simplify_concat]
          refine .read before _ hreads ?_ hok'
          rw [List.forall_mem_append, List.forall_mem_singleton]
          exact ⟨hheights, hheight⟩

theorem changedByAll (h : Told strategy done tree) (requests : List Change) :
    Told strategy (done ++ tree.accepted requests) (tree.changedByAll requests) := by
  -- Carried over the requests: the tree so far is told by those that were accepted so far.
  induction requests generalizing done tree with
  | nil =>
      rw [accepted, List.append_nil]
      exact h
  | cons request rest ih =>
      rw [accepted]
      rcases step_or_unchanged tree request with ⟨haccepts, hstep⟩ | ⟨hrefuses, hsame⟩
      · rw [if_pos haccepts, ← List.singleton_append, ← List.append_assoc]
        exact ih (h.step hstep)
      · rw [if_neg hrefuses]
        rw [← hsame] at h
        exact ih h

end Told

theorem changedByAll_accepted (tree : Tree) (requests : List Change) :
    tree.changedByAll (tree.accepted requests) = tree.changedByAll requests := by
  induction requests generalizing tree with
  | nil => rfl
  | cons request rest ih =>
      rw [accepted]
      rcases step_or_unchanged tree request with ⟨haccepts, -⟩ | ⟨hrefuses, hsame⟩
      · rw [if_pos haccepts]
        exact ih (tree.changed request)
      · rw [if_neg hrefuses, hsame, ih]
        exact congrArg (fun tree => Tree.changedByAll tree rest) hsame.symm

/-- The law of a tree's life: its strategy stays; it is empty as long as no text has been read; and
after that it is what the last text reads as, collapsed once to the least height that was asked for
since and could be reached. Changes that failed may as well not have been asked for. -/
theorem changedByAll_told (strategy : Strategy) (requests : List Change) :
    let tree := changedByAll { strategy } requests
    let done := accepted { strategy } requests
    tree.strategy = strategy ∧
    (tree.root = none ↔ ∀ text, .parse text ∉ done) ∧
    (tree.root = none ∨ ∃ before text, ∃ heights : List Value, ∃ tokens e,
      done = before ++ .parse text :: heights.map .simplify ∧
      (tokenize text).outcome = .ok tokens ∧ (strategy.parse tokens).outcome = .ok e ∧
      (∀ height ∈ heights, 0 ≤ height.toInt) ∧
      (e.collapseToLeast heights).failure = none ∧
      tree.root = some (e.collapseToLeast heights).expr) ∧
    changedByAll { strategy } done = tree := by
  intro tree done
  have hstart : Told strategy [] { strategy } := .empty []
  have htold : Told strategy done tree := hstart.changedByAll requests
  exact ⟨htold.strategy_eq, htold.root_eq_none_iff, htold.eq_none_or_exists_read,
    changedByAll_accepted _ requests⟩

end Tree

end InfixArithmetic
