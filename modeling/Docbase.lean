import Docbase.Declaration
import Docbase.Entity.Note
import Docbase.Entity.Numbered
import Docbase.Entity.Oversized
import Docbase.Entity.Person
import Docbase.Entity.Slot
import Docbase.Entity.Ticket
import Docbase.Expression.Compile
import Docbase.Index.Json
import Docbase.OperatorFilter
import Docbase.Page.Json
import Docbase.Proofs.Declaration.Roles
import Docbase.Proofs.Entity.Lawful
import Docbase.Proofs.Expression.Accepted
import Docbase.Proofs.Expression.Chain
import Docbase.Proofs.Expression.Cursor
import Docbase.Proofs.Expression.Display
import Docbase.Proofs.Expression.Membership
import Docbase.Proofs.Expression.NumeralText
import Docbase.Proofs.Expression.OrderBy
import Docbase.Proofs.Expression.StringSet
import Docbase.Proofs.Fields
import Docbase.Proofs.Matching.Connectives
import Docbase.Proofs.Matching.Equality
import Docbase.Proofs.Matching.Integers
import Docbase.Proofs.Matching.OrderOrEqual
import Docbase.Proofs.Matching.SortOrder
import Docbase.Proofs.Matching.TextSearch
import Docbase.Proofs.Naming.CamelCase
import Docbase.Proofs.Numeric.Double
import Docbase.Proofs.Numeric.WholeNumber
import Docbase.Proofs.OperatorFilter.Inert
import Docbase.Proofs.Projection.IndexedWorkspace
import Docbase.Proofs.Projection.JsonRoundTrip
import Docbase.Proofs.Projection.ResolvedNames
import Docbase.Proofs.Projection.SharedTable
import Docbase.Proofs.Projection.Views
import Docbase.Proofs.Repository.Discipline
import Docbase.Proofs.Repository.Exclusion
import Docbase.Proofs.Repository.InSync
import Docbase.Proofs.Repository.IndexNames
import Docbase.Proofs.Repository.Interleaving
import Docbase.Proofs.Repository.PageTable
import Docbase.Proofs.Session.Bracketing
import Docbase.Proofs.Store.Addressing
import Docbase.Proofs.Store.Loading
import Docbase.Proofs.Store.Rejection
import Docbase.Proofs.Store.Replacement
import Docbase.Proofs.Store.Scan
import Docbase.Proofs.Store.Sorting
import Docbase.Proofs.Store.UniqueKey
import Docbase.Repository.Basic
import Docbase.Repository.Documents
import Docbase.Settings
