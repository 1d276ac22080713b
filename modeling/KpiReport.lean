import KpiReport.CommandLine
import KpiReport.Main
import KpiReport.Sql.Draft
import KpiReport.Proofs.Formula.Acceptance
import KpiReport.Proofs.Meaning
import KpiReport.Proofs.Assembly.Schedule
import KpiReport.Proofs.Assembly.Query
import KpiReport.Proofs.Agreement
import KpiReport.Proofs.Canonical
import KpiReport.Proofs.Assembly.Outcome
import KpiReport.Proofs.Service
import KpiReport.Proofs.Assembly.Text
import KpiReport.Proofs.Unambiguous
import KpiReport.Proofs.Sql.Bound
import KpiReport.Proofs.Formula.Refusal
import KpiReport.Proofs.Sql.Quoting
import KpiReport.Proofs.Defects
import KpiReport.Proofs.Sql.Aliases
import KpiReport.Proofs.Sql.Order
import KpiReport.Proofs.Formula.Expectation
import KpiReport.Proofs.Formula.Progress
import KpiReport.Proofs.Formula.Tiling
import KpiReport.Proofs.Assembly.Relevance
import KpiReport.Proofs.Assembly.Names
import KpiReport.Proofs.Formula.Places
import KpiReport.Proofs.Respelling
import KpiReport.Proofs.Sql.Flags
import KpiReport.Proofs.FieldCount
import KpiReport.Proofs.Http.Response
import KpiReport.Proofs.Http.Transparency
import KpiReport.Proofs.Http.RequestLog
