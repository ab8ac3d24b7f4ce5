import Condition.Alike
import Condition.Arrangement
import Condition.Bracket
import Condition.Counting
import Condition.Cursor
import Condition.Formula
import Condition.Grammar
import Condition.Highlight
import Condition.Infix
import Condition.Main
import Condition.Nesting
import Condition.Numeral
import Condition.Postfix
import Condition.Printing
import Condition.Proofs.BrokenInput
import Condition.Proofs.Coloring
import Condition.Proofs.CursorScan
import Condition.Proofs.Depth
import Condition.Proofs.EventTrace
import Condition.Proofs.FaultPlace
import Condition.Proofs.Finality
import Condition.Proofs.GroupClosing
import Condition.Proofs.Grouping
import Condition.Proofs.InfixText
import Condition.Proofs.Interchange
import Condition.Proofs.Leftover
import Condition.Proofs.NumeralComparison
import Condition.Proofs.NumeralReading
import Condition.Proofs.Openness
import Condition.Proofs.OperandOrder
import Condition.Proofs.Outline
import Condition.Proofs.Pairing
import Condition.Proofs.Parenthesized
import Condition.Proofs.PipeRun
import Condition.Proofs.Pointing
import Condition.Proofs.PostfixRun
import Condition.Proofs.Rearrangement
import Condition.Proofs.Regrouping
import Condition.Proofs.Replacement
import Condition.Proofs.ReportForms
import Condition.Proofs.RoundTrip
import Condition.Proofs.Separation
import Condition.Proofs.StackOrder
import Condition.Proofs.Strictness
import Condition.Proofs.Underline
