import Tabula.Backend
import Tabula.Backend.Statement
import Tabula.Config
import Tabula.Config.Environment
import Tabula.Config.Setting
import Tabula.Cursor
import Tabula.Datum
import Tabula.Datum.Notation
import Tabula.Engine
import Tabula.Engine.History
import Tabula.Entries
import Tabula.Expr
import Tabula.Expr.Build
import Tabula.Expr.Eval
import Tabula.Expr.Function
import Tabula.Expr.Grammar
import Tabula.Expr.Grammar.Call
import Tabula.Expr.Grammar.Name
import Tabula.Expr.Grammar.Operand
import Tabula.Expr.Grammar.Operator
import Tabula.Expr.Grammar.Query
import Tabula.Expr.Grammar.Statement
import Tabula.Expr.Grammar.Type
import Tabula.Expr.Keyword
import Tabula.Expr.Lexeme
import Tabula.Expr.Phrase
import Tabula.Expr.Reader
import Tabula.Expr.Text
import Tabula.Expr.Token
import Tabula.Failure
import Tabula.Number.Binary64
import Tabula.Number.Layout
import Tabula.Number.Quotient
import Tabula.Number.Reading
import Tabula.Number.Shortest
import Tabula.Plan
import Tabula.Plan.Builder
import Tabula.Plan.Evaluate
import Tabula.Plan.Lineage
import Tabula.Plan.Operator
import Tabula.Plan.Run
import Tabula.Plan.Text
import Tabula.Proofs.Backend.Failing
import Tabula.Proofs.Backend.Statement
import Tabula.Proofs.Cursor.Flow
import Tabula.Proofs.Cursor.Reopening
import Tabula.Proofs.Engine.Account
import Tabula.Proofs.Engine.Calls
import Tabula.Proofs.Engine.Reconciliation
import Tabula.Proofs.Expr.Accounting
import Tabula.Proofs.Expr.Call
import Tabula.Proofs.Expr.Canonical
import Tabula.Proofs.Expr.Consumed
import Tabula.Proofs.Expr.Depth
import Tabula.Proofs.Expr.Ending
import Tabula.Proofs.Expr.Ensuring
import Tabula.Proofs.Expr.Eval
import Tabula.Proofs.Expr.Explained.Operand
import Tabula.Proofs.Expr.Explained.Operator
import Tabula.Proofs.Expr.Explained.Text
import Tabula.Proofs.Expr.Foreign.Call
import Tabula.Proofs.Expr.Foreign.Query
import Tabula.Proofs.Expr.Foreign.Statement
import Tabula.Proofs.Expr.Information
import Tabula.Proofs.Expr.Level
import Tabula.Proofs.Expr.Nodes
import Tabula.Proofs.Expr.Numeral
import Tabula.Proofs.Expr.Operand
import Tabula.Proofs.Expr.Reading
import Tabula.Proofs.Expr.Sameness
import Tabula.Proofs.Expr.Scan
import Tabula.Proofs.Expr.Scanner
import Tabula.Proofs.Expr.Semicolon
import Tabula.Proofs.Expr.Sentence
import Tabula.Proofs.Expr.Spelled
import Tabula.Proofs.Expr.Spelling
import Tabula.Proofs.Expr.Telling
import Tabula.Proofs.Expr.Trap
import Tabula.Proofs.Expr.Unambiguous
import Tabula.Proofs.Expr.Wording
import Tabula.Proofs.Number.Bits
import Tabula.Proofs.Number.Integer
import Tabula.Proofs.Number.Places
import Tabula.Proofs.Number.Rounding
import Tabula.Proofs.Number.Shortest
import Tabula.Proofs.Plan.Building
import Tabula.Proofs.Plan.Deferral
import Tabula.Proofs.Plan.FirstFailure
import Tabula.Proofs.Plan.Lineage
import Tabula.Proofs.Plan.Narrowing
import Tabula.Proofs.Plan.Ordering
import Tabula.Proofs.Plan.Permutation
import Tabula.Proofs.Plan.Rendering
import Tabula.Proofs.Plan.Run
import Tabula.Proofs.Plan.Safety
import Tabula.Proofs.Plan.Sameness
import Tabula.Proofs.Plan.Shape
import Tabula.Proofs.Plan.Soundness
import Tabula.Proofs.Plan.Stages
import Tabula.Proofs.Plan.Staging
import Tabula.Proofs.Plan.Validity
import Tabula.Proofs.Plan.Verdicts
import Tabula.Proofs.Provider.Failing
import Tabula.Proofs.Provider.Reading
import Tabula.Proofs.Result
import Tabula.Proofs.Row.Counting
import Tabula.Proofs.Row.Division
import Tabula.Proofs.Row.Groups
import Tabula.Proofs.Row.Keyed
import Tabula.Proofs.Row.Leading
import Tabula.Proofs.Row.Merge
import Tabula.Proofs.Row.Relabel
import Tabula.Proofs.Row.Reordered
import Tabula.Proofs.Row.Runs
import Tabula.Proofs.Row.Search
import Tabula.Proofs.Row.Shape
import Tabula.Proofs.Row.Sort
import Tabula.Proofs.Row.Stable
import Tabula.Proofs.Row.View
import Tabula.Proofs.Row.Window
import Tabula.Proofs.Sql.Expressible
import Tabula.Proofs.Sql.Lowering
import Tabula.Proofs.Sql.Query
import Tabula.Proofs.Sql.ReadBack
import Tabula.Proofs.Sql.Scalar
import Tabula.Proofs.Sql.Scope
import Tabula.Proofs.Table.Declaring
import Tabula.Proofs.Table.SameRows
import Tabula.Proofs.Text.Casing
import Tabula.Proofs.Text.Delimited
import Tabula.Proofs.Text.Quoted
import Tabula.Proofs.Value.Operations
import Tabula.Proofs.Value.Standing
import Tabula.Proofs.Value.Trap
import Tabula.Provider
import Tabula.Provider.History
import Tabula.Row
import Tabula.Row.Precedence
import Tabula.Row.Rank
import Tabula.Row.Runs
import Tabula.Row.Sort
import Tabula.Schema
import Tabula.Schema.Build
import Tabula.Sql.Lower
import Tabula.Sql.Meaning
import Tabula.Sql.Name
import Tabula.Sql.Print
import Tabula.Sql.Tree
import Tabula.Table
import Tabula.Telemetry
import Tabula.Telemetry.Event
import Tabula.Telemetry.Metric
import Tabula.Telemetry.Session
import Tabula.Text.Blank
import Tabula.Text.CaseTable
import Tabula.Text.Casing
import Tabula.Text.CodeRange
import Tabula.Text.Digit
import Tabula.Text.Doc
import Tabula.Text.Quoted
import Tabula.Text.Visible
import Tabula.Text.Word
import Tabula.Value
import Tabula.Value.Operations
import Tabula.Value.Order
import Tabula.Vocabulary
