import TwoLimb.Engine.WideWord
import TwoLimb.Engine.Instruction
import TwoLimb.UInt128.Conversion
import TwoLimb.UInt128.Divisor
import TwoLimb.UInt128.Power
import TwoLimb.Int128.Conversion
import TwoLimb.Int128.Division
import TwoLimb.Int128.Overflow
import TwoLimb.Int128.Shift
import TwoLimb.Float.Integer
import TwoLimb.Text.Display
import TwoLimb.Text.Field
import TwoLimb.Text.Literal
import TwoLimb.Text.Quoted
import TwoLimb.Machine.Signed
import TwoLimb.Machine.Unsigned
import TwoLimb.InPlace.Machine
import TwoLimb.UInt128.DivisionTrace
import TwoLimb.CarryChain
import TwoLimb.Storage
import TwoLimb.Target
import TwoLimb.Proofs.Engine.Exact
import TwoLimb.Proofs.Engine.Schoolbook
import TwoLimb.Proofs.Engine.BitwiseDivision
import TwoLimb.Proofs.UInt128.Bits
import TwoLimb.Proofs.Engine.LimbPairs
import TwoLimb.Proofs.Engine.Agreement
import TwoLimb.Proofs.CarryChain
import TwoLimb.Proofs.UInt128.Division
import TwoLimb.Proofs.Text.Numeral
import TwoLimb.Proofs.Text.Reader
import TwoLimb.Proofs.Text.RoundTrip
import TwoLimb.Proofs.Text.Layout
import TwoLimb.Proofs.Int128.TwosComplement
import TwoLimb.Proofs.Int128.Overflow
import TwoLimb.Proofs.Int128.Division
import TwoLimb.Proofs.Text.Grammar
import TwoLimb.Proofs.Float.Nearest
import TwoLimb.Proofs.Float.Encoding
import TwoLimb.Proofs.Float.Integer
import TwoLimb.Proofs.Float.RoundTrip
import TwoLimb.Proofs.Text.SignedGrammar
import TwoLimb.Proofs.Text.Encoding
import TwoLimb.Proofs.Text.LiteralGrammar
import TwoLimb.Proofs.Int128.Shift
import TwoLimb.Proofs.InPlace.Integers
import TwoLimb.Proofs.InPlace.IntegerMachine
import TwoLimb.Proofs.InPlace.Refinement
import TwoLimb.Proofs.InPlace.RegisterMachines
import TwoLimb.Proofs.Guarded.Everywhere
import TwoLimb.Proofs.Float.Datum
import TwoLimb.Proofs.Float.Range
import TwoLimb.Proofs.Float.Conversion
import TwoLimb.Proofs.UInt128.Overflow
import TwoLimb.Proofs.UInt128.CommonDivisor
import TwoLimb.Proofs.UInt128.CommonMultiple
import TwoLimb.Proofs.UInt128.Power
import TwoLimb.Proofs.UInt128.ShiftFamily
import TwoLimb.Proofs.Int128.ShiftFamily
import TwoLimb.Proofs.Int128.EuclideanDivision
import TwoLimb.Proofs.Text.CanonicalNumeral
import TwoLimb.Proofs.UInt128.DivisionTrace
import TwoLimb.Proofs.Text.SignedLiteralGrammar
import TwoLimb.Proofs.Text.FormatRoundTrip
import TwoLimb.Proofs.UInt128.Rotation
import TwoLimb.Proofs.Int128.Order
import TwoLimb.Proofs.Int128.Conversion
import TwoLimb.Proofs.Engine.Rounds
import TwoLimb.Proofs.Storage
