import InfixArithmetic.Expr.Evaluation
import InfixArithmetic.Expr.Traversal

namespace InfixArithmetic

namespace Expr

/-- The value over unbounded integers. Where a division by zero makes it meaningless, there is a
part that divides by zero. -/
def exactValue : Expr → Int
  | literal value => value.toInt
  | operation .add left right => left.exactValue + right.exactValue
  | operation .subtract left right => left.exactValue - right.exactValue
  | operation .multiply left right => left.exactValue * right.exactValue
  | operation .divide left right => left.exactValue.tdiv right.exactValue

/-- All parts of an expression, itself included, in postfix order. -/
def parts : Expr → List Expr
  | literal value => [literal value]
  | operation op left right => left.parts ++ right.parts ++ [operation op left right]

def rootToken : Expr → Token
  | literal value => .literal value
  | operation op _ _ => .operator op

/-- The operation at the root divides by zero. -/
def DividesByZero : Expr → Prop
  | literal _ => False
  | operation op _ right => op = .divide ∧ right.exactValue = 0

instance : DecidablePred DividesByZero
  | literal _ => inferInstanceAs (Decidable False)
  | operation _ _ _ => inferInstanceAs (Decidable (_ ∧ _))

/-- The root neither divides by zero nor has an exact value out of range. -/
def Sound (e : Expr) : Prop :=
  ¬e.DividesByZero ∧ -2147483648 ≤ e.exactValue ∧ e.exactValue ≤ 2147483647

instance : DecidablePred Sound := fun e =>
  inferInstanceAs (Decidable (¬e.DividesByZero ∧ _ ≤ e.exactValue ∧ e.exactValue ≤ _))

/-- The first part in postfix order that is not sound is this operation. -/
def FirstFault (e : Expr) (op : Operator) (left right : Expr) : Prop :=
  ∃ before after, e.parts = before ++ operation op left right :: after ∧
    (∀ part ∈ before, part.Sound) ∧ ¬(operation op left right).Sound

theorem exactValue_operation (op : Operator) (left right : Expr) :
    (operation op left right).exactValue = op.exact left.exactValue right.exactValue := by
  cases op <;> rfl

theorem map_rootToken_parts (e : Expr) : e.parts.map rootToken = e.toPostfix := by
  induction e with
  | literal value => rfl
  | operation op left right ihLeft ihRight =>
      rw [parts, List.map_append, List.map_append, ihLeft, ihRight]
      rfl

theorem sound_literal (value : Value) : (literal value).Sound := by
  refine ⟨id, ?_⟩
  have hrange := value.inRange
  rw [exactValue]
  omega

theorem forall_parts_operation_iff {P : Expr → Prop} {op : Operator} {left right : Expr} :
    (∀ part ∈ (operation op left right).parts, P part) ↔
      (∀ part ∈ left.parts, P part) ∧ (∀ part ∈ right.parts, P part) ∧
        P (operation op left right) := by
  simp only [parts, List.forall_mem_append, List.forall_mem_singleton, and_assoc]

end Expr

def Operator.fault (op : Operator) (a b : Value) : EvalError :=
  if op = .divide ∧ b = 0 then .divisionByZero a else .overflow op a b

namespace Expr

variable {op : Operator} {left right : Expr} {a b : Value}

theorem dividesByZero_iff (hb : b.toInt = right.exactValue) :
    (operation op left right).DividesByZero ↔ op = .divide ∧ b = 0 := by
  rw [DividesByZero, ← hb]
  constructor
  · rintro ⟨hop, hzero⟩
    exact ⟨hop, Value.ext hzero⟩
  · rintro ⟨hop, rfl⟩
    exact ⟨hop, rfl⟩

theorem apply_of_sound (ha : a.toInt = left.exactValue) (hb : b.toInt = right.exactValue)
    (h : (operation op left right).Sound) :
    ∃ value, op.apply a b = .ok value ∧ value.toInt = (operation op left right).exactValue := by
  obtain ⟨hzero, hrange⟩ := h
  have hinRange : -2147483648 ≤ op.exact a.toInt b.toInt ∧
      op.exact a.toInt b.toInt < 2147483648 := by
    rw [ha, hb]
    rw [exactValue_operation] at hrange
    omega
  refine ⟨⟨op.exact a.toInt b.toInt, hinRange⟩, ?_, ?_⟩
  · rw [Operator.apply, if_neg (fun h => hzero ((dividesByZero_iff hb).mpr h)), Value.ofInt?,
      dif_pos hinRange]
  · rw [exactValue_operation, ← ha, ← hb]

theorem apply_of_not_sound (ha : a.toInt = left.exactValue) (hb : b.toInt = right.exactValue)
    (h : ¬(operation op left right).Sound) : op.apply a b = .error (op.fault a b) := by
  rw [Operator.apply, Operator.fault]
  split
  · rfl
  next hzero =>
    have hnone : Value.ofInt? (op.exact a.toInt b.toInt) = none := by
      rw [Value.ofInt?_eq_none_iff, ha, hb]
      intro hrange
      apply h
      refine ⟨fun h => hzero ((dividesByZero_iff hb).mp h), ?_⟩
      rw [exactValue_operation]
      omega
    rw [hnone]

theorem evaluate_of_sound {e : Expr} (h : ∀ part ∈ e.parts, part.Sound) :
    ∃ value, e.evaluate = .ok value ∧ value.toInt = e.exactValue := by
  induction e with
  | literal value => exact ⟨value, rfl, rfl⟩
  | operation op left right ihLeft ihRight =>
      obtain ⟨hleft, hright, hroot⟩ := forall_parts_operation_iff.mp h
      obtain ⟨a, hevalLeft, ha⟩ := ihLeft hleft
      obtain ⟨b, hevalRight, hb⟩ := ihRight hright
      obtain ⟨value, happly, hvalue⟩ := apply_of_sound ha hb hroot
      refine ⟨value, ?_, hvalue⟩
      rw [evaluate, hevalLeft, hevalRight]
      exact happly

namespace FirstFault

variable {e : Expr} {op' : Operator} {left' right' : Expr}

theorem of_left (h : FirstFault left op' left' right') :
    FirstFault (operation op left right) op' left' right' := by
  obtain ⟨before, after, hparts, hbefore, hfault⟩ := h
  refine ⟨before, after ++ right.parts ++ [operation op left right], ?_, hbefore, hfault⟩
  rw [parts, hparts]
  simp

theorem of_right (hleft : ∀ part ∈ left.parts, part.Sound)
    (h : FirstFault right op' left' right') :
    FirstFault (operation op left right) op' left' right' := by
  obtain ⟨before, after, hparts, hbefore, hfault⟩ := h
  refine ⟨left.parts ++ before, after ++ [operation op left right], ?_, ?_, hfault⟩
  · rw [parts, hparts]
    simp
  · rw [List.forall_mem_append]
    exact ⟨hleft, hbefore⟩

theorem of_root (hleft : ∀ part ∈ left.parts, part.Sound)
    (hright : ∀ part ∈ right.parts, part.Sound) (h : ¬(operation op left right).Sound) :
    FirstFault (operation op left right) op left right := by
  refine ⟨left.parts ++ right.parts, [], rfl, ?_, h⟩
  rw [List.forall_mem_append]
  exact ⟨hleft, hright⟩

end FirstFault

theorem evaluate_of_not_sound {e : Expr} (h : ¬∀ part ∈ e.parts, part.Sound) :
    ∃ op left right a b, FirstFault e op left right ∧ a.toInt = left.exactValue ∧
      b.toInt = right.exactValue ∧ e.evaluate = .error (op.fault a b) := by
  induction e with
  | literal value =>
      exfalso
      apply h
      rw [parts, List.forall_mem_singleton]
      exact sound_literal value
  | operation op left right ihLeft ihRight =>
      by_cases hleft : ∀ part ∈ left.parts, part.Sound
      · obtain ⟨a, hevalLeft, ha⟩ := evaluate_of_sound hleft
        by_cases hright : ∀ part ∈ right.parts, part.Sound
        · obtain ⟨b, hevalRight, hb⟩ := evaluate_of_sound hright
          have hroot : ¬(operation op left right).Sound := fun hroot =>
            h (forall_parts_operation_iff.mpr ⟨hleft, hright, hroot⟩)
          refine ⟨op, left, right, a, b, .of_root hleft hright hroot, ha, hb, ?_⟩
          rw [evaluate, hevalLeft, hevalRight]
          exact apply_of_not_sound ha hb hroot
        · obtain ⟨op', left', right', a', b, hfault, ha', hb, heval⟩ := ihRight hright
          refine ⟨op', left', right', a', b, hfault.of_right hleft, ha', hb, ?_⟩
          rw [evaluate, hevalLeft, heval]
          rfl
      · obtain ⟨op', left', right', a, b, hfault, ha, hb, heval⟩ := ihLeft hleft
        refine ⟨op', left', right', a, b, hfault.of_left, ha, hb, ?_⟩
        rw [evaluate, heval]
        rfl

theorem fault_ne_negativeHeight (op : Operator) (a b height : Value) :
    op.fault a b ≠ .negativeHeight height := by
  rw [Operator.fault]
  split <;> simp

/-- Evaluation is exact arithmetic with a report of the first fault: if all parts are sound, the
value is the exact one; otherwise the error is that of the first operation in postfix order that
is not sound, with the exact values of its operands. -/
theorem evaluate_exact_or_first_fault (e : Expr) :
    ((∀ part ∈ e.parts, part.Sound) →
      ∃ value, e.evaluate = .ok value ∧ value.toInt = e.exactValue) ∧
    ((¬∀ part ∈ e.parts, part.Sound) →
      ∃ op left right a b, FirstFault e op left right ∧ a.toInt = left.exactValue ∧
        b.toInt = right.exactValue ∧
        e.evaluate = .error
          (if op = .divide ∧ b = 0 then .divisionByZero a else .overflow op a b)) ∧
    (∀ height, e.evaluate ≠ .error (.negativeHeight height)) ∧
    e.parts.map rootToken = e.toPostfix := by
  refine ⟨evaluate_of_sound, evaluate_of_not_sound, ?_, map_rootToken_parts e⟩
  intro height heval
  by_cases h : ∀ part ∈ e.parts, part.Sound
  · obtain ⟨value, hvalue, -⟩ := evaluate_of_sound h
    rw [hvalue] at heval
    cases heval
  · obtain ⟨op, left, right, a, b, -, -, -, hfault⟩ := evaluate_of_not_sound h
    rw [hfault] at heval
    exact fault_ne_negativeHeight op a b height (Except.error.inj heval)

theorem evaluate_exact_or_first_fault_of_quotients :
    let truncated := operation .divide (literal { toInt := -7 }) (literal { toInt := 2 })
    let faulty := operation .add
      (operation .divide (literal { toInt := -2147483648 }) (literal { toInt := -1 }))
      (operation .divide (literal { toInt := 5 }) (literal 0))
    ((∀ part ∈ truncated.parts, part.Sound) ∧
      ∃ value, truncated.evaluate = .ok value ∧ value.toInt = truncated.exactValue) ∧
    (¬∀ part ∈ faulty.parts, part.Sound) ∧
      ∃ op left right a b, FirstFault faulty op left right ∧ a.toInt = left.exactValue ∧
        b.toInt = right.exactValue ∧
        faulty.evaluate = .error
          (if op = .divide ∧ b = 0 then .divisionByZero a else .overflow op a b) := by
  intro truncated faulty
  have hsound : ∀ part ∈ truncated.parts, part.Sound := by decide
  have hfault : ¬∀ part ∈ faulty.parts, part.Sound := by decide
  exact ⟨⟨hsound, (evaluate_exact_or_first_fault truncated).1 hsound⟩, hfault,
    (evaluate_exact_or_first_fault faulty).2.1 hfault⟩

end Expr

end InfixArithmetic
