import InfixArithmetic.Token

namespace InfixArithmetic.Bracket

/-- The number of open groups after a token, or nothing if the token closes a group that was never
opened. -/
def depthAfter (depth : Nat) : Token → Option Nat
  | .openParen => some (depth + 1)
  | .closeParen => if depth = 0 then none else some (depth - 1)
  | _ => some depth

/-- The index of the first token that closes the last open group. Here `depth` groups are open
before the tokens, and the first of them has the index `index`. -/
def closeFrom (depth index : Nat) : List Token → Option Nat
  | [] => none
  | token :: rest =>
      match depthAfter depth token with
      | none => none
      | some depth' =>
          if token = .closeParen ∧ depth' = 0 then
            some index
          else
            closeFrom depth' (index + 1) rest

/-- The index of the parenthesis that closes the one at `start`, if the group is closed at all. -/
def matchingClose? (tokens : List Token) (start : Nat) : Option Nat :=
  closeFrom 0 start (tokens.drop start)

/-- Parentheses are balanced when as many are closed as opened and none is closed too early. -/
def Balanced (tokens : List Token) : Prop :=
  tokens.count .openParen = tokens.count .closeParen ∧
    ∀ n, (tokens.take n).count .closeParen ≤ (tokens.take n).count .openParen

theorem closeFrom_bounds {depth index close : Nat} {tokens : List Token}
    (h : closeFrom depth index tokens = some close) :
    index ≤ close ∧ close < index + tokens.length := by
  induction tokens generalizing depth index with
  | nil => simp [closeFrom] at h
  | cons token rest ih =>
      simp only [closeFrom] at h
      split at h
      · simp at h
      · split at h
        · cases h
          simp
        · have hrest := ih h
          simp only [List.length_cons]
          omega

theorem index_lt_of_closeFrom_zero {index close : Nat} {tokens : List Token}
    (h : closeFrom 0 index tokens = some close) : index < close := by
  cases tokens with
  | nil => simp [closeFrom] at h
  | cons token rest =>
      simp only [closeFrom] at h
      split at h
      · simp at h
      next depth' hdepth =>
        split at h
        next hclosed => simp [hclosed.1, depthAfter] at hdepth
        next => exact (closeFrom_bounds h).1

theorem matchingClose?_bounds {tokens : List Token} {start close : Nat}
    (h : matchingClose? tokens start = some close) : start < close ∧ close < tokens.length := by
  have hbounds := closeFrom_bounds h
  have hlt := index_lt_of_closeFrom_zero h
  rw [List.length_drop] at hbounds
  omega

end InfixArithmetic.Bracket
