import SelectQuery.Json.Printer
import SelectQuery.Statement.Mutation
import SelectQuery.Statement.Run
import SelectQuery.Value.Source
import SelectQuery.Proofs.Mutation
import SelectQuery.Proofs.Reachable
import SelectQuery.Proofs.Containment
import SelectQuery.Proofs.Correlation
import SelectQuery.Proofs.DropOrder
import SelectQuery.Proofs.FromClause
import SelectQuery.Proofs.Identifier
import SelectQuery.Proofs.Pruning
import SelectQuery.Proofs.Atomicity
import SelectQuery.Proofs.Assembly
import SelectQuery.Proofs.Union
import SelectQuery.Proofs.Qualifier
import SelectQuery.Proofs.Part
import SelectQuery.Proofs.Frame
import SelectQuery.Proofs.PartAccess
import SelectQuery.Proofs.CallOrder
import SelectQuery.Proofs.RoundTrip
import SelectQuery.Proofs.Literal
import SelectQuery.Proofs.Inlining
import SelectQuery.Proofs.Execution
import SelectQuery.Proofs.Misuse
import SelectQuery.Proofs.Alias
import SelectQuery.Proofs.Direction
import SelectQuery.Proofs.SelectList
import SelectQuery.Proofs.Update
import SelectQuery.Proofs.RowIds
import SelectQuery.Proofs.GivenAlias
import SelectQuery.Proofs.Grammar
import SelectQuery.Proofs.DottedName
import SelectQuery.Proofs.LineComment
import SelectQuery.Proofs.Survival
import SelectQuery.Proofs.Mention
import SelectQuery.Proofs.Writable
import SelectQuery.Proofs.Conditions
import SelectQuery.Proofs.FreeNumber
import SelectQuery.Proofs.Paging
import SelectQuery.Proofs.OrderTerm
import SelectQuery.Proofs.Occurrence
import SelectQuery.Proofs.LeadingInteger
import SelectQuery.Proofs.LeadingNumber
import SelectQuery.Proofs.Cast
import SelectQuery.Proofs.ColumnAlias
