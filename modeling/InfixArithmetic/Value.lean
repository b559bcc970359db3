namespace InfixArithmetic

/-- The value of an expression, from `-2 ^ 31` up to but not including `2 ^ 31`. -/
@[ext] structure Value where
  toInt : Int
  inRange : -2147483648 ≤ toInt ∧ toInt < 2147483648 := by decide
deriving DecidableEq, Repr

namespace Value

instance : Zero Value := ⟨{ toInt := 0 }⟩

instance : Inhabited Value := ⟨0⟩

def ofInt? (n : Int) : Option Value :=
  if h : -2147483648 ≤ n ∧ n < 2147483648 then some ⟨n, h⟩ else none

@[simp] theorem toInt_zero : (0 : Value).toInt = 0 := rfl

theorem ofInt?_toInt (v : Value) : ofInt? v.toInt = some v := by
  rw [ofInt?, dif_pos v.inRange]

theorem ofInt?_eq_some_iff {n : Int} {v : Value} : ofInt? n = some v ↔ v.toInt = n := by
  constructor
  · intro h
    simp only [ofInt?, Option.dite_none_right_eq_some, Option.some.injEq] at h
    obtain ⟨_, rfl⟩ := h
    rfl
  · rintro rfl
    exact ofInt?_toInt v

theorem ofInt?_eq_none_iff {n : Int} : ofInt? n = none ↔ ¬(-2147483648 ≤ n ∧ n < 2147483648) := by
  simp only [ofInt?, dite_eq_right_iff, reduceCtorEq, imp_false]

end Value

end InfixArithmetic
