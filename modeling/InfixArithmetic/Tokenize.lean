import InfixArithmetic.Error
import InfixArithmetic.Text.Blank
import InfixArithmetic.Traced

namespace InfixArithmetic

/-- The tokens of a text, in order. A text of blanks only is refused. -/
def tokenize (text : String) : Traced ParseError (List Token) :=
  let tokens := (Text.atoms text.toList).map fun atom => Token.ofText (String.ofList atom)
  if tokens.isEmpty then
    Traced.fail .emptyInput
  else do
    Traced.log (.tokenized text tokens)
    return tokens

end InfixArithmetic
