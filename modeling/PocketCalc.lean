import PocketCalc.Main
import PocketCalc.Proofs.ByteFraming
import PocketCalc.Proofs.ConstantEntry
import PocketCalc.Proofs.Deletion
import PocketCalc.Proofs.FactorialRun
import PocketCalc.Proofs.KeyArguments
import PocketCalc.Proofs.KeyWriting
import PocketCalc.Proofs.LineAnswers
import PocketCalc.Proofs.ModeIndependence
import PocketCalc.Proofs.NestedCalls
import PocketCalc.Proofs.NormalizedText
import PocketCalc.Proofs.OperandReading
import PocketCalc.Proofs.Pushdown
import PocketCalc.Proofs.Readiness
import PocketCalc.Proofs.ScanFault
import PocketCalc.Proofs.SplicedOperand
import PocketCalc.Proofs.TypedNumeral
import PocketCalc.Proofs.ZeroOperand
