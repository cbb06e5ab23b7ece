import MetadataStore.Action
import MetadataStore.Attribute
import MetadataStore.Cache
import MetadataStore.Catalog
import MetadataStore.Column
import MetadataStore.Command
import MetadataStore.Database.Change
import MetadataStore.Database.Snapshot
import MetadataStore.Database.Tables
import MetadataStore.Database.Transaction
import MetadataStore.Datum
import MetadataStore.Digest
import MetadataStore.Fault
import MetadataStore.Handle.Actions
import MetadataStore.Handle.Basic
import MetadataStore.Handle.Writing
import MetadataStore.Keyed
import MetadataStore.Kind
import MetadataStore.LinkKind
import MetadataStore.LockKind
import MetadataStore.Main
import MetadataStore.Number.Binary64
import MetadataStore.Number.Decimal
import MetadataStore.Number.Layout
import MetadataStore.Number.Reader
import MetadataStore.Query.Condition
import MetadataStore.Query.Dialect
import MetadataStore.Query.Matching
import MetadataStore.Query.Meaning
import MetadataStore.Query.Normal
import MetadataStore.Query.Statement
import MetadataStore.Repository.Basic
import MetadataStore.Repository.Disposal
import MetadataStore.Repository.Linking
import MetadataStore.Repository.Locking
import MetadataStore.Rows
import MetadataStore.Search.Expression
import MetadataStore.Search.Item
import MetadataStore.Session.Basic
import MetadataStore.Session.Intervention
import MetadataStore.Session.Operation
import MetadataStore.Settings.Basic
import MetadataStore.Settings.Load
import MetadataStore.Settings.Setting
import MetadataStore.Settings.Toml.Document
import MetadataStore.Settings.Toml.Scalar
import MetadataStore.Settings.Toml.Tables
import MetadataStore.Settings.Toml.Text
import MetadataStore.Status
import MetadataStore.Text.Blank
import MetadataStore.Text.CaseTable
import MetadataStore.Text.Digit
import MetadataStore.Text.Lowercase
import MetadataStore.Time.DateTime
import MetadataStore.Time.Operand
import MetadataStore.Time.Span
import MetadataStore.Time.Text
import MetadataStore.Truth
import MetadataStore.UnitRef
import MetadataStore.Value
import MetadataStore.Proofs.Query.Lowering
import MetadataStore.Proofs.Text.Digits
import MetadataStore.Proofs.UnitRef
import MetadataStore.Proofs.Action
import MetadataStore.Proofs.Cache.Copies
import MetadataStore.Proofs.Database.Keys
import MetadataStore.Proofs.Database.Sound
import MetadataStore.Proofs.Handle.FailedStore
import MetadataStore.Proofs.Query.Selection
import MetadataStore.Proofs.Database.Links
import MetadataStore.Proofs.Handle.Agreement
import MetadataStore.Proofs.Handle.Coherence
import MetadataStore.Proofs.Handle.Collisions
import MetadataStore.Proofs.Handle.RoundTrip
import MetadataStore.Proofs.Session.Coherence
import MetadataStore.Proofs.Query.Quoting
import MetadataStore.Proofs.Session.Integrity
import MetadataStore.Proofs.Session.Disposal
import MetadataStore.Proofs.Session.Finality
import MetadataStore.Proofs.Repository.Lifecycle
import MetadataStore.Proofs.Session.Lifecycle
import MetadataStore.Proofs.Query.Negation
import MetadataStore.Proofs.Session.Searches
import MetadataStore.Proofs.Text.Lowercase
import MetadataStore.Proofs.Query.Finding
import MetadataStore.Proofs.Number.Layout
import MetadataStore.Proofs.Query.Literals
import MetadataStore.Proofs.Query.Reading
import MetadataStore.Proofs.Query.Determined
import MetadataStore.Proofs.Cache.Calls
import MetadataStore.Proofs.Repository.Catalogue
import MetadataStore.Proofs.Session.Definitions
import MetadataStore.Proofs.Repository.Locked
import MetadataStore.Proofs.Session.Locking
import MetadataStore.Proofs.Session.Inactivation
import MetadataStore.Proofs.Digest
import MetadataStore.Proofs.Value
import MetadataStore.Proofs.Rows
import MetadataStore.Proofs.Session.Linking
import MetadataStore.Proofs.Session.Exactness
import MetadataStore.Proofs.Cache.Eviction
import MetadataStore.Proofs.Text.Order
import MetadataStore.Proofs.Time.Calendar
import MetadataStore.Proofs.Time.Order
import MetadataStore.Proofs.Time.Span
import MetadataStore.Proofs.Time.RoundTrip
import MetadataStore.Proofs.Query.Times
import MetadataStore.Proofs.Query.Refusal
import MetadataStore.Proofs.Query.Paging
import MetadataStore.Proofs.Time.Operand
import MetadataStore.Proofs.Database.Attempts
