import InfixArithmetic.Grammar
import InfixArithmetic.Interpretation
import InfixArithmetic.Main
import InfixArithmetic.Session
import InfixArithmetic.Proofs.BracketMatching
import InfixArithmetic.Proofs.Derivation
import InfixArithmetic.Proofs.DescentGrammar
import InfixArithmetic.Proofs.YardGrammar
import InfixArithmetic.Proofs.PostfixBuilding
import InfixArithmetic.Proofs.PostfixErrors
import InfixArithmetic.Proofs.StrategyGrammar
import InfixArithmetic.Proofs.ExactEvaluation
import InfixArithmetic.Proofs.CollapseHeight
import InfixArithmetic.Proofs.PartialCollapse
import InfixArithmetic.Proofs.CollapsePositions
import InfixArithmetic.Proofs.TreeChanges
import InfixArithmetic.Proofs.TokenText
import InfixArithmetic.Proofs.Numerals
import InfixArithmetic.Proofs.ReprintedText
import InfixArithmetic.Proofs.PrefixText
import InfixArithmetic.Proofs.PostfixText
import InfixArithmetic.Proofs.StrategyErrors
import InfixArithmetic.Proofs.JustifiedErrors
import InfixArithmetic.Proofs.LocalLegality
import InfixArithmetic.Proofs.PrintedLines
import InfixArithmetic.Proofs.PostfixFedBack
import InfixArithmetic.Proofs.ChoiceOfStrategy
import InfixArithmetic.Proofs.DrawingLayout
import InfixArithmetic.Proofs.YardInvariant
import InfixArithmetic.Proofs.YardLog
import InfixArithmetic.Proofs.DescentLog
import InfixArithmetic.Proofs.DescentRange
