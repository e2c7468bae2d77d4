import EntityTables.Text.Words
import EntityTables.Syntax.Lexer
import EntityTables.Syntax.LiteralValue
import EntityTables.Text.ClusterTable
import EntityTables.Syntax.Grammar.Type
import EntityTables.Syntax.Grammar.Pattern
import EntityTables.Syntax.Grammar
import EntityTables.Syntax.Printer
import EntityTables.Text.Accessor
import EntityTables.Text.Similarity
import EntityTables.Text.QualifiedName
import EntityTables.Keyed
import EntityTables.Syntax.Attribute
import EntityTables.Syntax.Signature
import EntityTables.Syntax.Compose
import EntityTables.Marker.Basic
import EntityTables.Unit.Lookup
import EntityTables.Unit.ModulePath
import EntityTables.Options
import EntityTables.Record
import EntityTables.Schema.Resolve
import EntityTables.Call.Pass
import EntityTables.Database.Table
import EntityTables.Diagnostic
import EntityTables.Example.Program
import EntityTables.Expansion
import EntityTables.Generated.Code
import EntityTables.Generated.Run
import EntityTables.Workspace
import EntityTables.Proofs.Schema.Checking
import EntityTables.Proofs.Schema.Cycle
import EntityTables.Proofs.Schema.Failure
import EntityTables.Proofs.Schema.History
import EntityTables.Proofs.Call.Order
import EntityTables.Proofs.Generated.ConstructorCalls
import EntityTables.Proofs.Call.Registration
import EntityTables.Proofs.Call.Counting
import EntityTables.Proofs.Call.Freshness
import EntityTables.Proofs.Call.Idempotence
import EntityTables.Proofs.Call.Landing
import EntityTables.Proofs.Call.Methods
import EntityTables.Proofs.Call.Acceptance
import EntityTables.Proofs.Call.Receiver
import EntityTables.Proofs.Generated.Scanning
import EntityTables.Proofs.Call.Linking
import EntityTables.Proofs.Call.Places
import EntityTables.Proofs.Schema.Closure
import EntityTables.Proofs.Schema.FileOrder
import EntityTables.Proofs.Syntax.Words
import EntityTables.Proofs.Text.Plural
import EntityTables.Proofs.Unit.Names
import EntityTables.Proofs.Generated.Totality
import EntityTables.Proofs.Generated.Capture
import EntityTables.Proofs.Call.Binders
import EntityTables.Proofs.Call.Callable
import EntityTables.Proofs.Schema.Columns
import EntityTables.Proofs.Schema.ColumnNames
import EntityTables.Proofs.Generated.KeyHelpers
import EntityTables.Proofs.Generated.RoundTrip
import EntityTables.Proofs.Generated.DeclaredNames
import EntityTables.Proofs.Unit.Growth
import EntityTables.Proofs.Database.Statement
import EntityTables.Proofs.Generated.ForeignKeys
import EntityTables.Proofs.Schema.ReferenceTypes
import EntityTables.Proofs.Schema.ReferenceRules
import EntityTables.Proofs.Schema.EmptyNames
import EntityTables.Proofs.Schema.Depth
import EntityTables.Proofs.Unit.Configuration
import EntityTables.Proofs.Unit.Interface
import EntityTables.Proofs.Schema.ExplicitTypes
import EntityTables.Proofs.Expansion.Acceptance
import EntityTables.Proofs.Unit.ModulePath
import EntityTables.Proofs.Record.History
import EntityTables.Proofs.Generated.Rescanning
