import SchemaReconcile.Journal.Format
import SchemaReconcile.Journal.Trace
import SchemaReconcile.Main
import SchemaReconcile.Proofs.Catalog.Entries
import SchemaReconcile.Proofs.Catalog.Fact
import SchemaReconcile.Proofs.Results
import SchemaReconcile.Proofs.Catalog.Rows
import SchemaReconcile.Proofs.Plan.Same
import SchemaReconcile.Proofs.Plan.Settle
import SchemaReconcile.Proofs.Plan.Order
import SchemaReconcile.Proofs.Catalog.Ready
import SchemaReconcile.Proofs.Compile.Columns
import SchemaReconcile.Proofs.Naming.Hashes
import SchemaReconcile.Proofs.Plan.Agenda
import SchemaReconcile.Proofs.Plan.Complete
import SchemaReconcile.Proofs.Plan.Ready
import SchemaReconcile.Proofs.Plan.Refusal
import SchemaReconcile.Proofs.Plan.Additive
import SchemaReconcile.Proofs.Extract.WellFormed
import SchemaReconcile.Proofs.Compile.Relations
import SchemaReconcile.Proofs.Plan.Indexes
import SchemaReconcile.Proofs.Catalog.Session
import SchemaReconcile.Proofs.Catalog.Names
import SchemaReconcile.Proofs.Plan.Sizes
import SchemaReconcile.Proofs.Plan.Rendered
import SchemaReconcile.Proofs.Command.DryRun
import SchemaReconcile.Proofs.Refusals
import SchemaReconcile.Proofs.Extract.Directives
import SchemaReconcile.Proofs.Extract.Refusals
import SchemaReconcile.Proofs.Document.Schema
import SchemaReconcile.Proofs.Document.Directives
import SchemaReconcile.Proofs.Document.Refusals
import SchemaReconcile.Proofs.Sdl.Integers
import SchemaReconcile.Proofs.Sdl.Reader
import SchemaReconcile.Proofs.Plan.EnumTypes
import SchemaReconcile.Proofs.Plan.ForeignKeys
import SchemaReconcile.Proofs.Catalog.Memory
import SchemaReconcile.Proofs.Artifact.Docstrings
import SchemaReconcile.Proofs.Plan.Unrelated
import SchemaReconcile.Proofs.Plan.PrimaryKeys
import SchemaReconcile.Proofs.Artifact.Metadata
import SchemaReconcile.Proofs.Plan.Reordered
import SchemaReconcile.Proofs.Codec.Refusals
import SchemaReconcile.Proofs.Codec.RoundTrip
import SchemaReconcile.Proofs.Plan.LiveTypes
import SchemaReconcile.Proofs.Artifact.Identifiers
import SchemaReconcile.Proofs.Artifact.Distinct
import SchemaReconcile.Proofs.Artifact.Dependencies
import SchemaReconcile.Proofs.Artifact.MemberIdentifiers
import SchemaReconcile.Proofs.Artifact.Attributes
import SchemaReconcile.Proofs.Naming.Words
import SchemaReconcile.Proofs.Catalog.Failures
import SchemaReconcile.Proofs.Plan.Tables
import SchemaReconcile.Proofs.Extract.Exposed
import SchemaReconcile.Proofs.Model.IndexFlags
import SchemaReconcile.Proofs.Naming.Shortened
import SchemaReconcile.Proofs.Plan.Sorted
import SchemaReconcile.Proofs.Document.TypeRefs
import SchemaReconcile.Proofs.Yaml.Load
