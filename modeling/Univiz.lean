import Univiz.Access.Resolution
import Univiz.Adapters.Probes
import Univiz.AggregatedLineage.Currency
import Univiz.Aggregation.Announcements
import Univiz.Aggregation.Checkpoints
import Univiz.Aggregation.CancelSignals
import Univiz.Aggregation.GraphGuard
import Univiz.Aggregation.Idempotency
import Univiz.Aggregation.Retries
import Univiz.Aggregation.TerminalStates
import Univiz.Assignment.Inheritance
import Univiz.Auth.Rotation
import Univiz.Canvas.Conservation
import Univiz.Canvas.ContainmentMaps
import Univiz.Canvas.Patches
import Univiz.CanvasStore.EdgeFilters
import Univiz.CanvasStore.Indexes
import Univiz.CanvasStore.Versions
import Univiz.Concurrency.Submissions
import Univiz.EntityBrowser.Pages
import Univiz.FairShare.Bounds
import Univiz.Falkor.AggregatedReads
import Univiz.Falkor.Equivalence
import Univiz.Falkor.LineageTrace
import Univiz.GraphCache.Coalescing
import Univiz.GraphCache.Generations
import Univiz.Hydration.Children
import Univiz.Hydration.Search
import Univiz.Insights.Accounting
import Univiz.Insights.Deliveries
import Univiz.Insights.Redrives
import Univiz.Insights.TokenRate
import Univiz.Insights.Trimming
import Univiz.Jobs.Brokers
import Univiz.Jobs.Gaps
import Univiz.Jobs.Receipts
import Univiz.LevelTrace.Completeness
import Univiz.LayerTrees.Moves
import Univiz.LayerTrees.Placement
import Univiz.Lineage.Aggregation
import Univiz.Ontology.DeclaredLevels
import Univiz.Ontology.Evolution
import Univiz.Ontology.Immutability
import Univiz.Permissions.Previews
import Univiz.Providers.Agreement
import Univiz.Providers.AncestorFreshness
import Univiz.Providers.Instances
import Univiz.Providers.Operations
import Univiz.Reference.Conflicts
import Univiz.Reference.Containment
import Univiz.Reference.Copies
import Univiz.Reference.Sync
import Univiz.Remote.Admission
import Univiz.Remote.Inflight
import Univiz.Resolver.ContainmentGuard
import Univiz.Resolver.Coverage
import Univiz.Resolver.CycleSearch
import Univiz.Resolver.Mutations
import Univiz.SingleFlight.Outcomes
import Univiz.Staging.Conservation
import Univiz.Staging.Resolution
import Univiz.Staging.Unwinding
import Univiz.Trace.AncestorChain
import Univiz.Trace.Truncation
import Univiz.Trace.LossReports
import Univiz.TraceStore.Batches
import Univiz.TraceStore.Currency
import Univiz.TraceStore.Deltas
import Univiz.TraceStore.FilteredHierarchy
import Univiz.TraceStore.MergeSpine
import Univiz.Views.Evaluator
import Univiz.Views.Authority
import Univiz.Views.Exposure
import Univiz.Auth.Tab
import Univiz.Concurrency.Mapping
import Univiz.Editing.Conformance
import Univiz.Editing.Hierarchy
import Univiz.EntityBrowser.Children
import Univiz.Lineage.Projection
import Univiz.Aggregation.Concurrency
import Univiz.Aggregation.Limits
