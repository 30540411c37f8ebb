import BoundSql.Execution.Monitor
import BoundSql.Execution.Script
import BoundSql.Filter.Document
import BoundSql.Postgres.Server
import BoundSql.Proofs.Clause.Values
import BoundSql.Proofs.ConditionText.Acceptance
import BoundSql.Proofs.ConditionText.Failures
import BoundSql.Proofs.ConditionText.Grammar
import BoundSql.Proofs.ConditionText.Lexing
import BoundSql.Proofs.ConditionText.Marks
import BoundSql.Proofs.ConditionText.Masking
import BoundSql.Proofs.ConditionText.Parsing
import BoundSql.Proofs.ConditionText.Rendering
import BoundSql.Proofs.Except
import BoundSql.Proofs.Execution.Delivery
import BoundSql.Proofs.Execution.Masking
import BoundSql.Proofs.Execution.NamedInsert
import BoundSql.Proofs.Execution.Projection
import BoundSql.Proofs.Execution.RawAssignments
import BoundSql.Proofs.Execution.Style
import BoundSql.Proofs.Execution.Truncation
import BoundSql.Proofs.Filter.Agreement
import BoundSql.Proofs.Filter.Content
import BoundSql.Proofs.Filter.Nodes
import BoundSql.Proofs.Filter.RoundTrip
import BoundSql.Proofs.Filter.Validation
import BoundSql.Proofs.Identifier.Accepted
import BoundSql.Proofs.Identifier.Quoting
import BoundSql.Proofs.Json.Codec
import BoundSql.Proofs.Number.Conversion
import BoundSql.Proofs.Postgres.Cells
import BoundSql.Proofs.Postgres.Numbers
import BoundSql.Proofs.Predicate.Emptiness
import BoundSql.Proofs.Predicate.Fragments
import BoundSql.Proofs.Predicate.Markers
import BoundSql.Proofs.Predicate.Normal
import BoundSql.Proofs.Record.Attributes
import BoundSql.Proofs.Record.Deriving
import BoundSql.Proofs.Statement.Aspects
import BoundSql.Proofs.Statement.Builder
import BoundSql.Proofs.Statement.Clauses
import BoundSql.Proofs.Statement.EntryOrder
import BoundSql.Proofs.Statement.InsertAcceptance
import BoundSql.Proofs.Statement.InsertPlaces
import BoundSql.Proofs.Statement.InsertPresence
import BoundSql.Proofs.Statement.Markers
import BoundSql.Proofs.Statement.Names
import BoundSql.Proofs.Statement.Pieces
import BoundSql.Proofs.Statement.Refusal
import BoundSql.Proofs.Statement.Replace
import BoundSql.Proofs.Template.NamedBinding
import BoundSql.Proofs.Text.Utf8
import BoundSql.Record.Declaration
import BoundSql.Statement.Insert
import BoundSql.Statement.Select
