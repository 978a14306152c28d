import Reporting.Cache.Key
import Reporting.Cache.Run
import Reporting.CommandLine.Run
import Reporting.CommandLine.Markup
import Reporting.Main
import Reporting.Proofs.Outcome
import Reporting.Proofs.Sql.Names
import Reporting.Proofs.Text.Words
import Reporting.Proofs.Text.Digit
import Reporting.Proofs.Schema.Accepted
import Reporting.Proofs.Schema.Names
import Reporting.Proofs.Schema.WellFormed
import Reporting.Proofs.Execution
import Reporting.Proofs.ReportTable
import Reporting.Proofs.ReportTable.StoredTime
import Reporting.Proofs.ReportTable.Additions
import Reporting.Proofs.Field
import Reporting.Proofs.Field.Located
import Reporting.Proofs.Join
import Reporting.Proofs.Join.Plan
import Reporting.Proofs.Join.Walks
import Reporting.Proofs.Report.Rules
import Reporting.Proofs.Report.Clauses
import Reporting.Proofs.Report.Output
import Reporting.Proofs.Report.Compile
import Reporting.Proofs.Report.References
import Reporting.Proofs.Join.References
import Reporting.Proofs.Report.Agreement
import Reporting.Proofs.Report.Grammar
import Reporting.Proofs.Report.Unchecked
import Reporting.Proofs.Report.MetricNames
import Reporting.Proofs.Report.Stored
import Reporting.Proofs.Report.Rereading
import Reporting.Proofs.Sql.Statement
import Reporting.Proofs.Sql.Placeholders
import Reporting.Proofs.Report.Vetted
import Reporting.Proofs.Sql.Characters
import Reporting.Proofs.Sql.NamedBinds
import Reporting.Proofs.Report.Binding
import Reporting.Proofs.Report.Contains
import Reporting.Proofs.Report.Placeholders
import Reporting.Proofs.Report.Short
import Reporting.Proofs.Report.Noninterference
import Reporting.Proofs.CommandLine.Perform
import Reporting.Proofs.CommandLine.Ending
import Reporting.Proofs.CommandLine.LineBreaks
import Reporting.Proofs.ReportTable.Listing
import Reporting.Proofs.Text.Tight
import Reporting.Proofs.Text.UpperCase
import Reporting.Proofs.Text.Keyword
import Reporting.Proofs.Sql.Tokens
import Reporting.Proofs.Sql.Sections
import Reporting.Proofs.Sql.Legible
import Reporting.Proofs.Sql.SelectList
import Reporting.Proofs.Report.Columns
import Reporting.Proofs.Report.SortTarget
import Reporting.Proofs.Report.Decision
import Reporting.Proofs.Report.Bounded
import Reporting.Proofs.Report.Order
import Reporting.Proofs.Sql.Clauses
import Reporting.Proofs.Sql.Recovery
import Reporting.Proofs.Report.Lossless
import Reporting.Proofs.Cache.Entries
import Reporting.Proofs.Cache.Exchanges
import Reporting.Proofs.Cache.Safety
import Reporting.Proofs.Cache.Compute
import Reporting.Proofs.Cache.Key
import Reporting.Proofs.Cache.Retention
import Reporting.Proofs.Cache.Reentrancy
import Reporting.Proofs.Catalog
import Reporting.Proofs.Catalog.Summable
