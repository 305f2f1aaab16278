import StackLang.Main
import StackLang.Proofs.FailureLines
import StackLang.Proofs.Frame
import StackLang.Proofs.Limits
import StackLang.Proofs.LinearAlgebra
import StackLang.Proofs.OutputLines
import StackLang.Proofs.Runnable
import StackLang.Proofs.Sessions
import StackLang.Proofs.Spacing
import StackLang.Proofs.Powers
import StackLang.Proofs.Shifts
import StackLang.Proofs.NumberOrder
import StackLang.Proofs.ComparisonLaws
import StackLang.Proofs.IntegerOperators
import StackLang.Proofs.Parameters
import StackLang.Proofs.Transposition
import StackLang.Proofs.SourceParts
import StackLang.Proofs.FailingTokens
import StackLang.Proofs.ArrayOutcomes
import StackLang.Proofs.LambdaGrammar
import StackLang.Proofs.Rotations
import StackLang.Proofs.StackLedger
import StackLang.Proofs.OutputNames
import StackLang.Proofs.WordGrammar
