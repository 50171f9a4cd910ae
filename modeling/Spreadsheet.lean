import Spreadsheet.Text.Blank
import Spreadsheet.Text.Digit
import Spreadsheet.Text.Quoted
import Spreadsheet.Text.Uppercase
import Spreadsheet.Numeral.Integer
import Spreadsheet.Numeral.Binary64
import Spreadsheet.Numeral.Shortest
import Spreadsheet.Formula.Basic
import Spreadsheet.Formula.Operation
import Spreadsheet.Formula.Token
import Spreadsheet.Formula.Reader
import Spreadsheet.Formula.Printer
import Spreadsheet.Formula.Value
import Spreadsheet.IdSet
import Spreadsheet.OrderedMap
import Spreadsheet.Settings
import Spreadsheet.Graph
import Spreadsheet.Action
import Spreadsheet.Table.Basic
import Spreadsheet.Table.Edges
import Spreadsheet.Table.Walk
import Spreadsheet.Table.Recalculation
import Spreadsheet.Table.Order
import Spreadsheet.Table.Agreement
import Spreadsheet.Sheet
import Spreadsheet.Store
import Spreadsheet.Workbook
import Spreadsheet.Proofs.CellId
import Spreadsheet.Proofs.Reading
import Spreadsheet.Proofs.Records
import Spreadsheet.Proofs.Linking
import Spreadsheet.Proofs.Recalculation
import Spreadsheet.Proofs.Reader
import Spreadsheet.Proofs.Grammar
import Spreadsheet.Proofs.Order
import Spreadsheet.Proofs.Soundness
import Spreadsheet.Proofs.Editing
import Spreadsheet.Proofs.Reachable
import Spreadsheet.Proofs.Cycles
import Spreadsheet.Proofs.Effects
import Spreadsheet.Proofs.Replay
import Spreadsheet.Proofs.Loading
import Spreadsheet.Proofs.Refinement
import Spreadsheet.Proofs.Restart
import Spreadsheet.Proofs.Decimal
import Spreadsheet.Proofs.NumberText
import Spreadsheet.Proofs.Lexing
import Spreadsheet.Proofs.RoundTrip
import Spreadsheet.Proofs.Rollback
import Spreadsheet.Proofs.Copying
import Spreadsheet.Proofs.Isolation
import Spreadsheet.Proofs.Availability
import Spreadsheet.Proofs.Wiring
import Spreadsheet.Proofs.Affected
import Spreadsheet.Proofs.FixedPoint
import Spreadsheet.Proofs.LeastOrder
import Spreadsheet.Proofs.Evaluation
import Spreadsheet.Proofs.Contract
import Spreadsheet.Proofs.Repetition
import Spreadsheet.Proofs.Refusal
import Spreadsheet.Proofs.Spelling
import Spreadsheet.Proofs.Parentheses
import Spreadsheet.Proofs.Appearance
import Spreadsheet.Proofs.Numbering
import Spreadsheet.Proofs.ReferenceOrder
import Spreadsheet.Proofs.Scanning
