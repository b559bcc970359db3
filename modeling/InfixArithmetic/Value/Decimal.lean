import InfixArithmetic.Value

namespace InfixArithmetic.Value

/-- The number written by a nonempty sequence of decimal digits. -/
def magnitude? (digits : List Char) : Option Nat :=
  if !digits.isEmpty && digits.all Char.isDigit then
    some (Nat.ofDigitChars 10 digits 0)
  else
    none

def integer? : List Char → Option Int
  | '-' :: digits => (magnitude? digits).map fun n => -(n : Int)
  | '+' :: digits => (magnitude? digits).map fun n => (n : Int)
  | digits => (magnitude? digits).map fun n => (n : Int)

/-- Reads a value in decimal notation. Integers out of range are refused. -/
def ofDecimal? (characters : List Char) : Option Value :=
  (integer? characters).bind ofInt?

/-- The canonical decimal notation: no plus sign, no superfluous zeros, zero without a sign. -/
def decimal (v : Value) : String :=
  v.toInt.repr

end InfixArithmetic.Value
