import ResourceEngine.Config.Reading
import ResourceEngine.Filter.Wire
import ResourceEngine.Rehearsal.Contexts
import ResourceEngine.Rehearsal.Program
import ResourceEngine.SimilarTo
import ResourceEngine.Text.Accent
import ResourceEngine.Value.Cell
import ResourceEngine.Proofs.Schema.Consistency
import ResourceEngine.Proofs.Schema.Registration
import ResourceEngine.Proofs.Sql.Condition
import ResourceEngine.Proofs.Sql.Grammar
import ResourceEngine.Proofs.Sql.Outline
import ResourceEngine.Proofs.Filter.Meaning
import ResourceEngine.Proofs.Filter.Outline
import ResourceEngine.Proofs.Filter.Acceptance
import ResourceEngine.Proofs.Filter.Wire
import ResourceEngine.Proofs.Filter.Dialects
import ResourceEngine.Proofs.Context.Lineage
import ResourceEngine.Proofs.Statement.Projection
import ResourceEngine.Proofs.Statement.Text
import ResourceEngine.Proofs.Statement.Clauses
import ResourceEngine.Proofs.Statement.TableDefinition
import ResourceEngine.Proofs.Statement.Keys
import ResourceEngine.Proofs.Store.Procedure
import ResourceEngine.Proofs.Store.Durability
import ResourceEngine.Proofs.Store.Oracle
import ResourceEngine.Proofs.Store.Finishing
import ResourceEngine.Proofs.Store.Absorption
import ResourceEngine.Proofs.Store.Bracketing
import ResourceEngine.Proofs.Store.Outcomes
import ResourceEngine.Proofs.Store.Watching
import ResourceEngine.Proofs.Store.Parallel
import ResourceEngine.Proofs.Regex.Grouping
import ResourceEngine.Proofs.Regex.Reach
import ResourceEngine.Proofs.Regex.Anchoring
import ResourceEngine.Proofs.Regex.AutomatonSize
import ResourceEngine.Proofs.Regex.Wildcards
import ResourceEngine.Proofs.Codec.RoundTrip
import ResourceEngine.Proofs.Codec.Overriding
import ResourceEngine.Proofs.Engine.Commitment
import ResourceEngine.Proofs.Engine.Hiding
import ResourceEngine.Proofs.Engine.Join
import ResourceEngine.Proofs.Engine.Returned
import ResourceEngine.Proofs.Engine.Writing
import ResourceEngine.Proofs.Engine.Binding
import ResourceEngine.Proofs.Engine.Namespace
import ResourceEngine.Proofs.Engine.Strict
import ResourceEngine.Proofs.Engine.Kinds
import ResourceEngine.Proofs.Engine.Window
import ResourceEngine.Proofs.Engine.Batches
import ResourceEngine.Proofs.Engine.Limits
