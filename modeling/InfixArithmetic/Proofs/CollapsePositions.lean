import InfixArithmetic.Expr.Collapse
import InfixArithmetic.Proofs.ExactEvaluation

namespace InfixArithmetic

/-- A step from an operation down to one of its operands. -/
inductive Side where
  | left
  | right
deriving DecidableEq, Repr

/-- Where the two paths part, the first one goes to the left and the second one to the right. -/
inductive LeftOf : List Side → List Side → Prop where
  | branch (path path' : List Side) : LeftOf (.left :: path) (.right :: path')
  | cons (side : Side) {path path' : List Side} :
      LeftOf path path' → LeftOf (side :: path) (side :: path')

namespace LeftOf

variable {path path' : List Side}

theorem not_nil (path : List Side) : ¬LeftOf path [] := by
  intro h
  cases h

theorem cons_iff {side : Side} : LeftOf (side :: path) (side :: path') ↔ LeftOf path path' := by
  constructor
  · intro h
    cases h with
    | cons _ h => exact h
  · exact LeftOf.cons side

theorem not_right_left (path path' : List Side) : ¬LeftOf (.right :: path) (.left :: path') := by
  intro h
  cases h

end LeftOf

namespace Expr

/-- The subtree at the end of a path, if the path does not leave the expression. -/
def subtree? : Expr → List Side → Option Expr
  | e, [] => some e
  | literal _, _ :: _ => none
  | operation _ left _, .left :: path => left.subtree? path
  | operation _ _ right, .right :: path => right.subtree? path

@[simp] theorem subtree?_nil (e : Expr) : e.subtree? [] = some e := by
  cases e <;> rfl

@[simp] theorem subtree?_literal_cons (value : Value) (side : Side) (path : List Side) :
    (literal value).subtree? (side :: path) = none := rfl

@[simp] theorem subtree?_left (op : Operator) (left right : Expr) (path : List Side) :
    (operation op left right).subtree? (.left :: path) = left.subtree? path := rfl

@[simp] theorem subtree?_right (op : Operator) (left right : Expr) (path : List Side) :
    (operation op left right).subtree? (.right :: path) = right.subtree? path := rfl

theorem subtree?_append (e : Expr) (path path' : List Side) :
    e.subtree? (path ++ path') = (e.subtree? path).bind fun part => part.subtree? path' := by
  induction path generalizing e with
  | nil => rw [List.nil_append, subtree?_nil, Option.bind_some]
  | cons side path ih =>
      cases e with
      | literal value => rfl
      | operation op left right =>
          cases side with
          | left => exact ih left
          | right => exact ih right

/-- All subtrees that are rooted this far below the root have a value. -/
def EvaluableAt (height : Nat) (e : Expr) : Prop :=
  ∀ path part, path.length = height → e.subtree? path = some part →
    ∃ value, part.evaluate = .ok value

/-- Of the subtrees that are rooted this far below the root, the one at this path is the leftmost
without a value. -/
structure FirstFailure (height : Nat) (e : Expr) (path : List Side) (error : EvalError) : Prop where
  length_eq : path.length = height
  fails : ∃ part, e.subtree? path = some part ∧ part.evaluate = .error error
  before : ∀ path' part, path'.length = height → LeftOf path' path → e.subtree? path' = some part →
    ∃ value, part.evaluate = .ok value

variable {op : Operator} {left right : Expr} {height : Nat}

theorem evaluableAt_zero_iff {e : Expr} :
    EvaluableAt 0 e ↔ ∃ value, e.evaluate = .ok value := by
  constructor
  · intro h
    exact h [] e rfl (subtree?_nil e)
  · intro h path part hlength hpart
    rw [List.length_eq_zero_iff] at hlength
    rw [hlength, subtree?_nil] at hpart
    cases hpart
    exact h

theorem evaluableAt_literal (height : Nat) (value : Value) :
    EvaluableAt height (literal value) := by
  rintro (_ | ⟨side, path⟩) part - hpart
  · rw [subtree?_nil] at hpart
    cases hpart
    exact ⟨value, rfl⟩
  · cases hpart

theorem evaluableAt_succ_iff :
    EvaluableAt (height + 1) (operation op left right) ↔
      EvaluableAt height left ∧ EvaluableAt height right := by
  constructor
  · intro h
    constructor
    · intro path part hlength hpart
      exact h (.left :: path) part (by rw [List.length_cons, hlength]) hpart
    · intro path part hlength hpart
      exact h (.right :: path) part (by rw [List.length_cons, hlength]) hpart
  · rintro ⟨hleft, hright⟩ (_ | ⟨_ | _, path⟩) part hlength hpart
    · cases hlength
    · exact hleft path part (Nat.succ.inj hlength) hpart
    · exact hright path part (Nat.succ.inj hlength) hpart

namespace FirstFailure

variable {path : List Side} {error : EvalError}

theorem root {e : Expr} (h : e.evaluate = .error error) : FirstFailure 0 e [] error where
  length_eq := rfl
  fails := ⟨e, subtree?_nil e, h⟩
  before path' _ _ hleft := absurd hleft (LeftOf.not_nil path')

theorem of_left (h : FirstFailure height left path error) :
    FirstFailure (height + 1) (operation op left right) (.left :: path) error where
  length_eq := by rw [List.length_cons, h.length_eq]
  fails := h.fails
  before := by
    rintro (_ | ⟨_ | _, path'⟩) part hlength hleft hpart
    · cases hlength
    · exact h.before path' part (Nat.succ.inj hlength) (LeftOf.cons_iff.mp hleft) hpart
    · exact absurd hleft (LeftOf.not_right_left path' path)

theorem of_right (hleft : EvaluableAt height left) (h : FirstFailure height right path error) :
    FirstFailure (height + 1) (operation op left right) (.right :: path) error where
  length_eq := by rw [List.length_cons, h.length_eq]
  fails := h.fails
  before := by
    rintro (_ | ⟨_ | _, path'⟩) part hlength hbefore hpart
    · cases hlength
    · exact hleft path' part (Nat.succ.inj hlength) hpart
    · exact h.before path' part (Nat.succ.inj hlength) (LeftOf.cons_iff.mp hbefore) hpart

end FirstFailure

/-- The second expression is the literal for the value of the first one. -/
def CollapsesTo (part part' : Expr) : Prop :=
  ∃ value, part.evaluate = .ok value ∧ part' = literal value

/-- The second expression is the first one in which, of the subtrees rooted `height` edges below the
root, those at the paths in question have been replaced by their values. -/
structure ReplacedAt (height : Nat) (replaced : List Side → Prop) (e e' : Expr) : Prop where
  /-- Above the replaced subtrees all literals and operators are where they were. -/
  above : ∀ path, path.length < height →
    (e'.subtree? path).map rootToken = (e.subtree? path).map rootToken
  /-- A path in question leads to the value of what it led to before, or to nothing as before. -/
  value : ∀ path, path.length = height → replaced path →
    Option.Rel CollapsesTo (e.subtree? path) (e'.subtree? path)
  kept : ∀ path, path.length = height → ¬replaced path → e'.subtree? path = e.subtree? path

namespace ReplacedAt

variable {replaced : List Side → Prop} {e : Expr}

theorem literal (height : Nat) (replaced : List Side → Prop) (value : Value) :
    ReplacedAt height replaced (literal value) (literal value) where
  above _ _ := rfl
  value := by
    rintro (_ | ⟨side, path⟩) - -
    · exact .some ⟨value, rfl, rfl⟩
    · exact .none
  kept _ _ _ := rfl

theorem root {value : Value} (h : e.evaluate = .ok value) :
    ReplacedAt 0 (fun _ => True) e (.literal value) where
  above path hlength := absurd hlength (Nat.not_lt_zero _)
  value := by
    intro path hlength _
    rw [List.length_eq_zero_iff] at hlength
    rw [hlength, subtree?_nil, subtree?_nil]
    exact .some ⟨value, h, rfl⟩
  kept path _ hkept := absurd trivial hkept

theorem unchanged (h : ∀ path, ¬replaced path) : ReplacedAt height replaced e e where
  above _ _ := rfl
  value path _ hreplaced := absurd hreplaced (h path)
  kept _ _ _ := rfl

theorem operation {left' right' : Expr}
    (h : ReplacedAt height (fun path => replaced (.left :: path)) left left')
    (k : ReplacedAt height (fun path => replaced (.right :: path)) right right') :
    ReplacedAt (height + 1) replaced (operation op left right) (operation op left' right') where
  above := by
    rintro (_ | ⟨_ | _, path⟩) hlength
    · rfl
    · exact h.above path (Nat.lt_of_succ_lt_succ hlength)
    · exact k.above path (Nat.lt_of_succ_lt_succ hlength)
  value := by
    rintro (_ | ⟨_ | _, path⟩) hlength hreplaced
    · cases hlength
    · exact h.value path (Nat.succ.inj hlength) hreplaced
    · exact k.value path (Nat.succ.inj hlength) hreplaced
  kept := by
    rintro (_ | ⟨_ | _, path⟩) hlength hkept
    · cases hlength
    · exact h.kept path (Nat.succ.inj hlength) hkept
    · exact k.kept path (Nat.succ.inj hlength) hkept

theorem subtree?_eq_none {e' : Expr} (h : ReplacedAt height (fun _ => True) e e')
    {path : List Side} (hlength : height < path.length) : e'.subtree? path = none := by
  have htake : (path.take height).length = height := by
    rw [List.length_take]
    omega
  have hvalue := h.value (path.take height) htake trivial
  rw [← List.take_append_drop height path, subtree?_append]
  generalize e.subtree? (path.take height) = part? at hvalue
  generalize e'.subtree? (path.take height) = part'? at hvalue
  cases hvalue with
  | none => rfl
  | some hpart =>
      obtain ⟨value, -, rfl⟩ := hpart
      rw [List.drop_eq_getElem_cons hlength]
      rfl

end ReplacedAt

theorem collapse_of_evaluableAt {e : Expr} (h : EvaluableAt height e) :
    (e.collapse height).failure = none ∧
      ReplacedAt height (fun _ => True) e (e.collapse height).expr := by
  induction e generalizing height with
  | literal value =>
      rw [collapse_literal]
      exact ⟨rfl, .literal height _ value⟩
  | operation op left right ihLeft ihRight =>
      cases height with
      | zero =>
          obtain ⟨value, hvalue⟩ := evaluableAt_zero_iff.mp h
          rw [collapse_zero_of_ok hvalue]
          exact ⟨rfl, .root hvalue⟩
      | succ height =>
          obtain ⟨hleft, hright⟩ := evaluableAt_succ_iff.mp h
          obtain ⟨hokLeft, hreplacedLeft⟩ := ihLeft hleft
          obtain ⟨hokRight, hreplacedRight⟩ := ihRight hright
          rw [collapse_succ_of_ok hokLeft]
          exact ⟨hokRight, .operation hreplacedLeft hreplacedRight⟩

-- The induction is on the expression. An error comes from the left operand if a subtree there has
-- no value, and only otherwise from the right one.
theorem exists_firstFailure {e : Expr} (h : ¬EvaluableAt height e) :
    ∃ path error, FirstFailure height e path error ∧
      (e.collapse height).failure = some error ∧
      ReplacedAt height (LeftOf · path) e (e.collapse height).expr := by
  induction e generalizing height with
  | literal value => exact absurd (evaluableAt_literal height value) h
  | operation op left right ihLeft ihRight =>
      cases height with
      | zero =>
          rw [evaluableAt_zero_iff] at h
          cases herror : (operation op left right).evaluate with
          | ok value => exact absurd ⟨value, herror⟩ h
          | error error =>
              rw [collapse_zero_of_error herror]
              exact ⟨[], error, .root herror, rfl, .unchanged LeftOf.not_nil⟩
      | succ height =>
          by_cases hleft : EvaluableAt height left
          · have hright : ¬EvaluableAt height right := fun hright =>
              h (evaluableAt_succ_iff.mpr ⟨hleft, hright⟩)
            obtain ⟨path, error, hfirst, hfailure, hreplaced⟩ := ihRight hright
            obtain ⟨hokLeft, hreplacedLeft⟩ := collapse_of_evaluableAt hleft
            rw [collapse_succ_of_ok hokLeft]
            refine ⟨.right :: path, error, hfirst.of_right hleft, hfailure, .operation ?_ ?_⟩
            · simpa only [LeftOf.branch] using hreplacedLeft
            · simpa only [LeftOf.cons_iff] using hreplaced
          · obtain ⟨path, error, hfirst, hfailure, hreplaced⟩ := ihLeft hleft
            rw [collapse_succ_of_error hfailure]
            refine ⟨.left :: path, error, hfirst.of_left, rfl, .operation ?_ ?_⟩
            · simpa only [LeftOf.cons_iff] using hreplaced
            · exact .unchanged fun path' => LeftOf.not_right_left path' path

/-- A collapse, position by position. If all subtrees of the given depth have values, it succeeds,
they are replaced by these, everything above is as before and there is nothing below. Otherwise it
reports the error of the leftmost subtree without a value; those to the left of it are replaced, and
that one, those to the right of it and everything above are as before. -/
theorem collapse_by_position (e : Expr) (height : Nat) :
    (EvaluableAt height e →
      (e.collapse height).failure = none ∧
      ReplacedAt height (fun _ => True) e (e.collapse height).expr ∧
      ∀ path, height < path.length → (e.collapse height).expr.subtree? path = none) ∧
    (¬EvaluableAt height e →
      ∃ path error, FirstFailure height e path error ∧
        (e.collapse height).failure = some error ∧
        ReplacedAt height (LeftOf · path) e (e.collapse height).expr) := by
  refine ⟨?_, exists_firstFailure⟩
  intro h
  obtain ⟨hok, hreplaced⟩ := collapse_of_evaluableAt h
  exact ⟨hok, hreplaced, fun _ hlength => hreplaced.subtree?_eq_none hlength⟩

theorem collapse_by_position_of_products :
    let one := literal { toInt := 1 }
    let sum := operation .add one one
    let quotient := operation .divide one (literal 0)
    let sound := operation .multiply sum one
    let faulty := operation .subtract (operation .multiply sum quotient) sum
    (EvaluableAt 1 sound ∧ (sound.collapse 1).failure = none ∧
      ReplacedAt 1 (fun _ => True) sound (sound.collapse 1).expr ∧
      ∀ path, 1 < path.length → (sound.collapse 1).expr.subtree? path = none) ∧
    ¬EvaluableAt 2 faulty ∧
      ∃ path error, FirstFailure 2 faulty path error ∧
        (faulty.collapse 2).failure = some error ∧
        ReplacedAt 2 (LeftOf · path) faulty (faulty.collapse 2).expr := by
  intro one sum quotient sound faulty
  have hsound : EvaluableAt 1 sound :=
    evaluableAt_succ_iff.mpr ⟨evaluableAt_zero_iff.mpr ⟨_, rfl⟩, evaluableAt_literal 0 _⟩
  have hfaulty : ¬EvaluableAt 2 faulty := by
    intro h
    obtain ⟨hproduct, -⟩ := evaluableAt_succ_iff.mp h
    obtain ⟨-, hquotient⟩ := evaluableAt_succ_iff.mp hproduct
    obtain ⟨value, hvalue⟩ := evaluableAt_zero_iff.mp hquotient
    cases hvalue
  exact ⟨⟨hsound, (collapse_by_position sound 1).1 hsound⟩, hfaulty,
    (collapse_by_position faulty 2).2 hfaulty⟩

end Expr

end InfixArithmetic
