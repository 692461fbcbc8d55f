import RowDerive.Text.Identifier
import RowDerive.Text.Printable
import RowDerive.Text.Blank
import RowDerive.Text.Escape
import RowDerive.Text.Quote
import RowDerive.Decimal.Binary
import RowDerive.Decimal.Shortest
import RowDerive.Decimal.Notation
import RowDerive.Value.Column
import RowDerive.Value.Print
import RowDerive.Row.Print
import RowDerive.Token.Print
import RowDerive.Token.StringLiteral
import RowDerive.Token.Lexer
import RowDerive.Parser.Basic
import RowDerive.Syntax.Ty
import RowDerive.Grammar.Type
import RowDerive.Grammar.Statement
import RowDerive.Grammar.Item
import RowDerive.Derive
import RowDerive.Extension.Script
import RowDerive.Sample.Records
import RowDerive.Body.Print
import RowDerive.Body.Run
import RowDerive.Code.Basic
import RowDerive.Code.Run
import RowDerive.Column.Storage
import RowDerive.Proofs.Row.Entries
import RowDerive.Row.Register
import RowDerive.Proofs.Row.History
import RowDerive.Proofs.Row.Refinement
import RowDerive.Proofs.Host.Conservation
import RowDerive.Proofs.Body.Assembly
import RowDerive.Proofs.Property.Extraction
import RowDerive.Proofs.Body.Numbering
import RowDerive.Proofs.Body.Written
import RowDerive.Proofs.Token.Number
import RowDerive.Proofs.Code.Reading
import RowDerive.Proofs.Code.Simulation
import RowDerive.Proofs.Code.Running
import RowDerive.Proofs.Body.Running
import RowDerive.Proofs.Host.Rows
import RowDerive.Proofs.Record.Declaration
import RowDerive.Proofs.Derive.Acceptance
import RowDerive.Proofs.Host.Outcome
import RowDerive.Proofs.Parser.Front
import RowDerive.Proofs.Grammar.Tree
import RowDerive.Proofs.Grammar.Type
import RowDerive.Proofs.Grammar.Sum
import RowDerive.Proofs.Grammar.Operand
import RowDerive.Proofs.Grammar.Pattern
import RowDerive.Proofs.Grammar.Statement
import RowDerive.Proofs.Grammar.Signature
import RowDerive.Proofs.Body.Reading
import RowDerive.Proofs.Record.FieldName
import RowDerive.Proofs.Record.Stage
import RowDerive.Proofs.Extension.Agreement
import RowDerive.Proofs.Derive.Together
import RowDerive.Proofs.Derive.Readable
import RowDerive.Proofs.Value.Typed
import RowDerive.Proofs.Host.Order
import RowDerive.Proofs.Derive.Diagnostics
import RowDerive.Proofs.Place.Token
import RowDerive.Proofs.Place.Reader
import RowDerive.Proofs.Place.Type
import RowDerive.Proofs.Place.Expr
import RowDerive.Proofs.Place.Member
import RowDerive.Proofs.Place.Item
import RowDerive.Proofs.Place.Setting
import RowDerive.Proofs.Derive.Relevance
import RowDerive.Proofs.Record.ColumnKey
import RowDerive.Proofs.Property.Reported
import RowDerive.Proofs.Body.Parts
import RowDerive.Proofs.Body.Sharing
import RowDerive.Proofs.Derive.Shape
import RowDerive.Proofs.Token.Spelling
import RowDerive.Proofs.Derive.Keys
import RowDerive.Proofs.Column.Native
import RowDerive.Proofs.Record.SoleGetter
import RowDerive.Proofs.Column.Wrapping
import RowDerive.Proofs.Depth.Reader
import RowDerive.Proofs.Depth.Type
import RowDerive.Proofs.Depth.Expr
import RowDerive.Proofs.Depth.Item
import RowDerive.Proofs.Follow.Token
import RowDerive.Proofs.Follow.Ending
import RowDerive.Proofs.Follow.Reader
import RowDerive.Proofs.Follow.Combinator
import RowDerive.Proofs.Follow.Bound
import RowDerive.Proofs.Follow.Type
import RowDerive.Proofs.Follow.Method
import RowDerive.Proofs.Follow.Start
import RowDerive.Proofs.Record.MethodList
import RowDerive.Proofs.Derive.Alone
import RowDerive.Proofs.Derive.Declared
import RowDerive.Proofs.Row.Merge
import RowDerive.Proofs.Row.Same
import RowDerive.Proofs.Column.Attributes
import RowDerive.Proofs.Parser.Shrinking
import RowDerive.Proofs.Column.SettingEntry
import RowDerive.Proofs.Column.SettingList
import RowDerive.Proofs.Column.SettingFault
import RowDerive.Proofs.Column.SettingGrammar
import RowDerive.Proofs.Text.Quoting
import RowDerive.Proofs.Row.Printed
import RowDerive.Proofs.Body.Storable
import RowDerive.Proofs.Sample.Instant
