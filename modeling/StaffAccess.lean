import StaffAccess.Authorization
import StaffAccess.Cache.ContextCache
import StaffAccess.Cache.Glob
import StaffAccess.Cache.Memory
import StaffAccess.Cache.Payload
import StaffAccess.Cache.Server
import StaffAccess.Cache.Store
import StaffAccess.Checked
import StaffAccess.Context
import StaffAccess.Context.Codec
import StaffAccess.Context.Compile
import StaffAccess.ContextService
import StaffAccess.Database
import StaffAccess.Database.Column
import StaffAccess.Database.Criterion
import StaffAccess.Database.Query
import StaffAccess.Database.RuleStore
import StaffAccess.Database.Schema
import StaffAccess.Database.Table
import StaffAccess.Double
import StaffAccess.Double.Shortest
import StaffAccess.Engine
import StaffAccess.Fault
import StaffAccess.Hierarchy.Assignment
import StaffAccess.Http.App
import StaffAccess.Http.Enforcement
import StaffAccess.Http.Request
import StaffAccess.Http.Route
import StaffAccess.Http.RouteGuard
import StaffAccess.Json.Reader
import StaffAccess.Json.Writer
import StaffAccess.LogLevel
import StaffAccess.OrderedMap
import StaffAccess.Permission
import StaffAccess.PermissionMatrix
import StaffAccess.Policy
import StaffAccess.Policy.File
import StaffAccess.Predicate
import StaffAccess.Predicate.Document
import StaffAccess.RowFilter
import StaffAccess.RowFilter.Condition
import StaffAccess.Settings
import StaffAccess.Store
import StaffAccess.Store.Read
import StaffAccess.Text.Base64
import StaffAccess.Text.Blank
import StaffAccess.Text.Digit
import StaffAccess.Text.Encoding
import StaffAccess.Text.Hex
import StaffAccess.Text.Numeral
import StaffAccess.Text.Part
import StaffAccess.Text.Printable
import StaffAccess.Text.Quoted
import StaffAccess.Ui.Condition
import StaffAccess.Ui.Config
import StaffAccess.Ui.Flags
import StaffAccess.Ui.TypeDefault
import StaffAccess.Ui.Visibility
import StaffAccess.Ui.Wildcard
import StaffAccess.Value
import StaffAccess.Value.Convert
import StaffAccess.Value.Text
import StaffAccess.Vocabulary
import StaffAccess.Yaml
import StaffAccess.Yaml.Content
import StaffAccess.Yaml.Layout
import StaffAccess.Yaml.Node
import StaffAccess.Yaml.Scalar
import StaffAccess.Yaml.Source
import StaffAccess.Yaml.Tag
import StaffAccess.Yaml.Timestamp
import StaffAccess.Yaml.Token
import StaffAccess.Proofs.Context.Grants
import StaffAccess.Proofs.Traversal
import StaffAccess.Proofs.Context.RuleRows
import StaffAccess.Proofs.Context.Gathering
import StaffAccess.Proofs.Store.Registry
import StaffAccess.Proofs.Permission.Grants
import StaffAccess.Proofs.Permission.Requests
import StaffAccess.Proofs.Predicate.Evaluation
import StaffAccess.Proofs.RowFilter.Visibility
import StaffAccess.Proofs.Cache.Contents
import StaffAccess.Proofs.Cache.Runs
import StaffAccess.Proofs.Context.Codec
import StaffAccess.Proofs.Double.Rounding
import StaffAccess.Proofs.Double.Shortest
import StaffAccess.Proofs.Json.Numbers
import StaffAccess.Proofs.Json.Steps
import StaffAccess.Proofs.Json.RoundTrip
import StaffAccess.Proofs.Context.Payload
import StaffAccess.Proofs.Context.RoundTrip
import StaffAccess.Proofs.Context.Compilation
import StaffAccess.Proofs.Cache.Freshness
import StaffAccess.Proofs.Hierarchy.Chains
import StaffAccess.Proofs.Hierarchy.Cycles
import StaffAccess.Proofs.Hierarchy.Depth
import StaffAccess.Proofs.Hierarchy.Walks
import StaffAccess.Proofs.Hierarchy.FreshRuns
import StaffAccess.Proofs.Context.AllOrNothing
import StaffAccess.Proofs.Context.Reading
import StaffAccess.Proofs.Database.Criteria
import StaffAccess.Proofs.Http.Declarations
import StaffAccess.Proofs.Http.Enforcement
import StaffAccess.Proofs.Json.Faults
import StaffAccess.Proofs.Cache.Corruption
import StaffAccess.Proofs.Cache.Operations
import StaffAccess.Proofs.Cache.Lifetimes
import StaffAccess.Proofs.OrderedMap
import StaffAccess.Proofs.Authorization.Batches
import StaffAccess.Proofs.Ui.TwoRuns
import StaffAccess.Proofs.Permission.Stages
import StaffAccess.Proofs.Authorization.RequestContexts
import StaffAccess.Proofs.Authorization.MoreGrants
import StaffAccess.Proofs.Json.Delimiters
import StaffAccess.Proofs.Context.Provenance
import StaffAccess.Proofs.Cache.Inventory
import StaffAccess.Proofs.Cache.Turns
import StaffAccess.Proofs.Cache.Interleaving
import StaffAccess.Proofs.Predicate.NormalForm
import StaffAccess.Proofs.Predicate.RoundTrip
import StaffAccess.Proofs.Ui.Wildcard
import StaffAccess.Proofs.Ui.Elements
import StaffAccess.Proofs.Ui.NameDefaults
import StaffAccess.Proofs.Ui.Pages
import StaffAccess.Proofs.Ui.BrokenRules
import StaffAccess.Proofs.RowFilter.FailClosed
import StaffAccess.Proofs.Value.Equality
import StaffAccess.Proofs.Permission.AskedKeys
import StaffAccess.Proofs.Predicate.Building
import StaffAccess.Proofs.RowFilter.Fields
import StaffAccess.Proofs.RowFilter.Combined
import StaffAccess.Proofs.RowFilter.RefusedDocuments
import StaffAccess.Proofs.RowFilter.Narrowing
import StaffAccess.Proofs.Context.RowGroups
import StaffAccess.Proofs.Ui.Conditions
import StaffAccess.Proofs.Ui.Entries
import StaffAccess.Proofs.Authorization.Views
import StaffAccess.Proofs.Text.Encoding
import StaffAccess.Proofs.Cache.Glob
import StaffAccess.Proofs.Cache.PrefixDeletion
import StaffAccess.Proofs.Database.FilterCriteria
