import ModelQuery.Text.Blank
import ModelQuery.Text.Case
import ModelQuery.Text.Split
import ModelQuery.Text.QuotedParts
import ModelQuery.Text.Shown
import ModelQuery.Text.Digit
import ModelQuery.Decimal.Shortest
import ModelQuery.Decimal.Whole
import ModelQuery.Decimal.Point
import ModelQuery.Json.Reader
import ModelQuery.Value.Shown
import ModelQuery.Value.Conversion
import ModelQuery.Resolve
import ModelQuery.Query.Clauses
import ModelQuery.Sql.Formula
import ModelQuery.Sql.Statement
import ModelQuery.Sql.Catalog
import ModelQuery.Sql.Dialect
import ModelQuery.Sql.Function.Call
import ModelQuery.Sql.Rendering
import ModelQuery.Sql.Wording.Expression
import ModelQuery.Sql.Wording.Select
import ModelQuery.Sql.Wording.Mutation
import ModelQuery.Sql.Compile
import ModelQuery.Query.Call
import ModelQuery.Records.Collection
import ModelQuery.Execution.Session
import ModelQuery.Schema.Mapping
import ModelQuery.Settings.Address
import ModelQuery.Settings
import ModelQuery.Proofs.Outcome
import ModelQuery.Proofs.Sql.Truth
import ModelQuery.Proofs.Sql.Reading
import ModelQuery.Proofs.Sql.Written
import ModelQuery.Proofs.Sql.Filters
import ModelQuery.Proofs.Sql.Mentioned
import ModelQuery.Proofs.Sql.Worded
import ModelQuery.Proofs.Sql.References
import ModelQuery.Proofs.Sql.Assigned
import ModelQuery.Proofs.Sql.Apart
import ModelQuery.Proofs.Sql.Names
import ModelQuery.Proofs.Query.Extends
import ModelQuery.Proofs.Query.Kept
import ModelQuery.Proofs.Query.Brackets
import ModelQuery.Proofs.Execution.Defaults
import ModelQuery.Proofs.Execution.Runs
import ModelQuery.Proofs.Execution.Once
import ModelQuery.Proofs.Execution.Reset
import ModelQuery.Proofs.Execution.Conditions
import ModelQuery.Proofs.Records.Tree
import ModelQuery.Proofs.Records.Entries
import ModelQuery.Proofs.Records.Missing
import ModelQuery.Proofs.Records.Labels
import ModelQuery.Proofs.Records.RoundTrip
import ModelQuery.Proofs.Sql.Shadowing
import ModelQuery.Proofs.Query.Beginning
import ModelQuery.Proofs.Query.Hops
import ModelQuery.Proofs.Sql.Overwritten
import ModelQuery.Proofs.Sql.Matched
import ModelQuery.Proofs.Sql.Scalars
import ModelQuery.Proofs.Sql.MatchedStatements
import ModelQuery.Proofs.Sql.MatchedTokens
import ModelQuery.Proofs.Sql.Compared
import ModelQuery.Proofs.Sql.Remains
import ModelQuery.Proofs.Sql.Bound
import ModelQuery.Proofs.Execution.Assignments
import ModelQuery.Proofs.Schema.Fields
import ModelQuery.Proofs.Schema.Registration
import ModelQuery.Proofs.Schema.Mapped
import ModelQuery.Proofs.Schema.Association
import ModelQuery.Proofs.Query.Qualified
import ModelQuery.Proofs.Query.Relationships
import ModelQuery.Proofs.Query.Columns
import ModelQuery.Proofs.Text.Small
import ModelQuery.Proofs.Schema.OwnName
import ModelQuery.Proofs.Schema.Classes
import ModelQuery.Proofs.Sql.Parts
import ModelQuery.Proofs.Sql.Counted
import ModelQuery.Proofs.Execution.Canonical
import ModelQuery.Proofs.Sql.Known
import ModelQuery.Proofs.Sql.Listed
import ModelQuery.Proofs.Sql.Ordered
import ModelQuery.Proofs.Sql.Ignored
import ModelQuery.Proofs.Sql.Grid
import ModelQuery.Proofs.Sql.Inserted
import ModelQuery.Proofs.Schema.Keyed
import ModelQuery.Proofs.Query.Spellings
import ModelQuery.Proofs.Text.Replaced
import ModelQuery.Proofs.Query.Uncaptured
import ModelQuery.Proofs.Query.Resolved
import ModelQuery.Proofs.Query.Appended
import ModelQuery.Proofs.Sql.Sources
import ModelQuery.Proofs.Sql.Gained
import ModelQuery.Proofs.Execution.OwnEntry
import ModelQuery.Proofs.Text.Leftmost
import ModelQuery.Proofs.Query.Expressions
import ModelQuery.Proofs.Value.Keys
import ModelQuery.Proofs.Records.Exports
import ModelQuery.Proofs.Schema.ReadFrom
import ModelQuery.Proofs.Records.Instances
import ModelQuery.Proofs.Records.Slices
import ModelQuery.Proofs.Records.Walks
