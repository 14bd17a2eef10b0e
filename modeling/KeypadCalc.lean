import KeypadCalc.Main
import KeypadCalc.Tool
import KeypadCalc.Proofs.Grammar.Tree
import KeypadCalc.Proofs.Grammar.Chain
import KeypadCalc.Proofs.Grammar.Nesting
import KeypadCalc.Proofs.Grammar.Soundness
import KeypadCalc.Proofs.Grammar.Completeness
import KeypadCalc.Proofs.Grammar.Evaluation
import KeypadCalc.Proofs.Grammar.Viability
import KeypadCalc.Proofs.Grammar.Room
import KeypadCalc.Proofs.Grammar.Calls
import KeypadCalc.Proofs.Token.Operators
import KeypadCalc.Proofs.Token.Position
import KeypadCalc.Proofs.Token.Lexeme
import KeypadCalc.Proofs.Token.Tiling
import KeypadCalc.Proofs.Token.Spacing
import KeypadCalc.Proofs.Grammar.Fault
import KeypadCalc.Proofs.Grammar.Continuation
import KeypadCalc.Proofs.Grammar.Spacing
import KeypadCalc.Proofs.Grammar.Balance
import KeypadCalc.Proofs.Grammar.Cut
import KeypadCalc.Proofs.Grammar.Split
import KeypadCalc.Proofs.Calculator
import KeypadCalc.Proofs.Keypad.Run
import KeypadCalc.Proofs.Keypad.Stroke
import KeypadCalc.Proofs.Keypad.Equation
import KeypadCalc.Proofs.Keypad.Roots
import KeypadCalc.Proofs.Keypad.Cap
import KeypadCalc.Proofs.Keypad.Answer
import KeypadCalc.Proofs.Keypad.Stray
import KeypadCalc.Proofs.Session
import KeypadCalc.Proofs.Session.Ledger
import KeypadCalc.Proofs.Keypad.Twin
import KeypadCalc.Proofs.Decimal.Nearest
import KeypadCalc.Proofs.Decimal.Digits
import KeypadCalc.Proofs.Decimal.Significand
import KeypadCalc.Proofs.Decimal.Numeral
import KeypadCalc.Proofs.Decimal.Canonical
import KeypadCalc.Proofs.Decimal.Pattern
import KeypadCalc.Proofs.Text.Ending
import KeypadCalc.Proofs.Token.Numeral
import KeypadCalc.Proofs.Binary64.Value
import KeypadCalc.Proofs.Binary64.Word
import KeypadCalc.Proofs.Binary64.Nearest
import KeypadCalc.Proofs.Binary64.Comparison
import KeypadCalc.Proofs.Binary64.Power
import KeypadCalc.Proofs.Display.Faithful
import KeypadCalc.Proofs.Display.Reentry
import KeypadCalc.Proofs.Display.Shape
import KeypadCalc.Proofs.Display.Typed
import KeypadCalc.Proofs.Guard.Primitive
import KeypadCalc.Proofs.Guard.Numeral
import KeypadCalc.Proofs.Guard.Cursor
import KeypadCalc.Proofs.Guard.Calculator
import KeypadCalc.Proofs.Batch.Report
import KeypadCalc.Proofs.Batch.Words
import KeypadCalc.Proofs.Batch.Arguments
import KeypadCalc.Proofs.Scope
import KeypadCalc.Proofs.Settings.Origins
import KeypadCalc.Proofs.Settings.Limits
import KeypadCalc.Http.Usual
import KeypadCalc.Proofs.Http.Frame
import KeypadCalc.Proofs.Http.Calculation
import KeypadCalc.Proofs.Http.Usual
import KeypadCalc.Proofs.Http.Handlers
import KeypadCalc.Proofs.Http.Sessions
import KeypadCalc.Proofs.Remote.Reply
import KeypadCalc.Proofs.Remote.Service
import KeypadCalc.Proofs.Remote.Contract
import KeypadCalc.Proofs.Http.Refusal
import KeypadCalc.Proofs.Keypad.Remote
import KeypadCalc.Proofs.Http.Records
import KeypadCalc.Proofs.Http.Identity
