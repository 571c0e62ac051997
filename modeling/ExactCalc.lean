import ExactCalc.Json.Exchange
import ExactCalc.Main
import ExactCalc.Rational.Binary64
import ExactCalc.Word.Bytes
import ExactCalc.Word.Integer
import ExactCalc.Word.Layout
import ExactCalc.Proofs.Word.Residue
import ExactCalc.Proofs.Word.Stored
import ExactCalc.Proofs.Word.Operations
import ExactCalc.Proofs.Word.Expression
import ExactCalc.Proofs.Rational.Field
import ExactCalc.Proofs.Rational.Pair
import ExactCalc.Proofs.Rational.Expression
import ExactCalc.Proofs.Word.Division
import ExactCalc.Proofs.Decimal.Literal
import ExactCalc.Proofs.Json.Quoted
import ExactCalc.Proofs.Rational.Expansion
import ExactCalc.Proofs.Rational.Literal
import ExactCalc.Proofs.Rational.Render
import ExactCalc.Proofs.Decimal.Normal
import ExactCalc.Proofs.Rational.Lossless
import ExactCalc.Proofs.Decimal.Render
import ExactCalc.Proofs.Calculator.Specifier
import ExactCalc.Proofs.Settings.Entries
import ExactCalc.Proofs.Text.Radix
import ExactCalc.Proofs.Word.Literal
import ExactCalc.Proofs.Word.Render
import ExactCalc.Proofs.Calculator.Printing
import ExactCalc.Proofs.Calculator.Residues
import ExactCalc.Proofs.Rational.Power
import ExactCalc.Proofs.Binary64
import ExactCalc.Proofs.Calculator.Arithmetic
import ExactCalc.Proofs.Rational.Binary64
import ExactCalc.Proofs.Rational.Order
import ExactCalc.Proofs.Word.Widths
import ExactCalc.Proofs.Word.Truncation
import ExactCalc.Proofs.Binary64.Nearest
import ExactCalc.Proofs.Rational.RoundTrip
import ExactCalc.Proofs.Word.Logic
import ExactCalc.Proofs.Word.Extension
import ExactCalc.Proofs.Word.Magnitude
import ExactCalc.Proofs.Word.Checked
import ExactCalc.Proofs.Word.Safety
import ExactCalc.Proofs.Rational.Agreement
import ExactCalc.Proofs.Text.Places
import ExactCalc.Proofs.Word.Digits
import ExactCalc.Proofs.Word.Bytes
import ExactCalc.Proofs.Json.Object
import ExactCalc.Proofs.Word.Exchange
import ExactCalc.Proofs.Notices
import ExactCalc.Proofs.Settings.Check
import ExactCalc.Proofs.Settings.Layers
import ExactCalc.Proofs.Calculator.Evaluation
import ExactCalc.Proofs.Rational.Symmetry
import ExactCalc.Proofs.Word.Shift
import ExactCalc.Proofs.Word.Moves
import ExactCalc.Proofs.Word.Slices
import ExactCalc.Proofs.Word.Copies
import ExactCalc.Proofs.Word.Resizing
import ExactCalc.Proofs.Word.Order
import ExactCalc.Proofs.Word.Counts
import ExactCalc.Proofs.Word.Integer
import ExactCalc.Proofs.Word.Operand
import ExactCalc.Proofs.Decimal.Reading
import ExactCalc.Proofs.Decimal.Forms
