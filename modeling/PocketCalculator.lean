import PocketCalculator.Main
import PocketCalculator.Pad.Window
import PocketCalculator.Proofs.Decimal.Run
import PocketCalculator.Proofs.Expression.Grammar
import PocketCalculator.Proofs.Expression.Spelling
import PocketCalculator.Proofs.Expression.Chain
import PocketCalculator.Proofs.Expression.Recognition
import PocketCalculator.Proofs.Display.Shape
import PocketCalculator.Proofs.Expression.Flat
import PocketCalculator.Proofs.Pad.Keys
import PocketCalculator.Proofs.Pad.Tape
import PocketCalculator.Proofs.Pad.Gap
import PocketCalculator.Proofs.Pad.Typing
import PocketCalculator.Proofs.Pad.Point
import PocketCalculator.Proofs.Pad.Recovery
import PocketCalculator.Proofs.Binary64.Bits
import PocketCalculator.Proofs.Binary64.Rounding
import PocketCalculator.Proofs.Decimal.Value
import PocketCalculator.Proofs.Decimal.Shortest
import PocketCalculator.Proofs.Display.Reading
import PocketCalculator.Proofs.Pad.Result
import PocketCalculator.Proofs.Pad.Invariant
import PocketCalculator.Proofs.Expression.Failure
import PocketCalculator.Proofs.Expression.Offence
import PocketCalculator.Proofs.Display.Operand
import PocketCalculator.Proofs.Pad.Continuation
import PocketCalculator.Proofs.Expression.Counting
import PocketCalculator.Proofs.Expression.Levels
import PocketCalculator.Proofs.Expression.Nesting
import PocketCalculator.Proofs.Expression.Spacing
import PocketCalculator.Proofs.CommandLine.Options
import PocketCalculator.Proofs.Pad.Frames
import PocketCalculator.Proofs.Decimal.Order
import PocketCalculator.Proofs.Display.Normal
import PocketCalculator.Proofs.Expression.Numeral
import PocketCalculator.Proofs.Pad.Hundredth
import PocketCalculator.Proofs.Pad.Replay
import PocketCalculator.Proofs.Binary64.Exact
import PocketCalculator.Proofs.Expression.Whole
import PocketCalculator.Proofs.Expression.Cursor
import PocketCalculator.Proofs.Expression.Descent
import PocketCalculator.Proofs.Expression.Evaluation
