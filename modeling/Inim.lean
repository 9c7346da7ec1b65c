import Inim.Assess.Loss
import Inim.Assess.Observed
import Inim.Cache.CohortIdentity
import Inim.Cache.UpdateTransparency
import Inim.Catalog.Attribution
import Inim.Catalog.Batch
import Inim.Catalog.GroupHistory
import Inim.Catalog.LatestView
import Inim.Catalog.Overlaps
import Inim.Catalog.PhaseStreams
import Inim.Catalog.PlanCoverage
import Inim.Catalog.PlanHash
import Inim.Catalog.PlanIdentity
import Inim.Catalog.PoliteClient
import Inim.Catalog.Readiness
import Inim.Catalog.References
import Inim.Catalog.Reimport
import Inim.Catalog.Relationships
import Inim.Catalog.Relations
import Inim.Catalog.RunImmutability
import Inim.Catalog.Staged
import Inim.Catalog.Verdicts
import Inim.Discover.Continuity
import Inim.Discover.Selection
import Inim.Ingest.OriginOrder
import Inim.Ingest.Retention
import Inim.Jobs.Agreement
import Inim.Jobs.Cleanup
import Inim.Jobs.Terminal
import Inim.Jobs.TicketInput
import Inim.Lifecycle.Absence
import Inim.Lifecycle.Audit
import Inim.Lifecycle.Category
import Inim.Lifecycle.Cooldown
import Inim.Lifecycle.Finding
import Inim.Lifecycle.Fingerprint
import Inim.Lifecycle.Gshut
import Inim.Lifecycle.Instances
import Inim.Lifecycle.Order
import Inim.Lifecycle.Streams
import Inim.Pipeline.ArchivesApart
import Inim.Routes.Causality
import Inim.Routes.Collectors
import Inim.Routes.Evidence
import Inim.Sequitur.Checked
import Inim.Tokenize.Facets
import Inim.Tokenize.Kinds
import Inim.Waves.Identity
import Inim.Waves.Labels
import Inim.Workbench.RestoreTimes
import Inim.Workbench.StreamCopies
import Inim.Workbench.Lanes
import Inim.Workbench.Clock
import Inim.Workbench.Identities
import Inim.Workbench.PathDiff
import Inim.Workbench.Principal
import Inim.Catalog.PeerInventory
import Inim.Workbench.Units
import Inim.Lib.Index
import Inim.Lib.Latest
import Inim.Catalog.Queries
import Inim.Catalog.Scope
import Inim.Catalog.Status
import Inim.Catalog.StatusHistory
import Inim.Catalog.StatusRuns
import Inim.Catalog.ScopeChecks
import Inim.Cache.Preimages
import Inim.Profiles.Internet2
import Inim.Workbench.PathDiagram
import Inim.Catalog.FrontierRuns
import Inim.Catalog.CaseImportKept
import Inim.Catalog.ReviewsKept
import Inim.Catalog.SessionAudit
import Inim.Catalog.ArtifactPath
import Inim.Workbench.ChronologyDays
import Inim.Jobs.WorkerRun
import Inim.Catalog.AuditAgreement
import Inim.Catalog.Backfill
import Inim.Catalog.CrawlRuns
import Inim.Catalog.RebuildRuns
