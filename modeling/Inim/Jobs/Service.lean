import Inim.Domain.Observation
import Inim.Jobs.State
import Inim.Lib.SortBy

/-!
# The job service: every transaction on `analysis_jobs` (`catalog/jobs/service.rs`)

| here | there |
| --- | --- |
| `AnalysisJob`, `JobEvent`        | the rows of `analysis_jobs` and `analysis_job_events` (`migrations.rs:491-534`) |
| `JobStore`                       | the two tables; `job`, `eventsOf` are what a `SELECT … WHERE` on one job sees |
| `JobStore.update`, `rows`        | `UPDATE analysis_jobs SET … WHERE id = ? AND …` and the number of rows it changes |
| `Catalog`                        | what the service reads of the other tables |
| `appendEventTx`, `nextSequence`  | `service.rs:205-248` |
| `transition`, `fail`, `complete` | `service.rs:301-496` |
| `queue`, `claimNext`, `renewLease`, `markStaleLeases` | `service.rs:505-825` |
| `requestCancelTx`, `retryTx`     | the transactions of `request_cancel` and `retry` (`service.rs:886-938`, `:1003-1038`) |
| `updateProgress`, `setStagedRoot` | `service.rs:1172-1188`, `worker.rs:534-540` |

A function here is one SQLite transaction: it gives the new tables, or an error and then
nothing is written. Timestamps are RFC 3339 text in UTC to the second, which sorts as the
instant does; a row holds the instant. `state` is text that reads back as written
(`parseState_asStr`), so the `corrupt state` errors cannot arise. `now` is the clock reading
of the transaction (`later` a second one), `newId` the 128 random bits of `new_job_id`.
-/

namespace Inim

open JobState
open Inim.Lib

abbrev JobId := String

inductive RequestSource where
  | cli
  | localWeb
deriving DecidableEq, Repr

structure AnalysisJob where
  id : JobId
  planRevisionId : Int
  requestedBy : RequestSource
  requestedAt : DateTime
  state : JobState
  attempt : Int
  originalJobId : Option JobId
  workerId : Option String
  leaseAcquiredAt : Option DateTime
  leaseExpiresAt : Option DateTime
  heartbeatAt : Option DateTime
  stage : Option String
  progressCurrent : Option Int
  progressTotal : Option Int
  progressUnit : Option String
  cancelRequestedAt : Option DateTime
  startedAt : Option DateTime
  finishedAt : Option DateTime
  errorCode : Option String
  errorSummary : Option String
  stagedArtifactRoot : Option String
  completedRunId : Option Int
  planHash : String
deriving DecidableEq, Repr

structure JobEvent where
  jobId : JobId
  sequence : Nat
  occurredAt : DateTime
  state : JobState
  stage : Option String
  messageCode : Option String
  humanMessage : String
  progressCurrent : Option Int
  progressTotal : Option Int
  progressUnit : Option String
  structuredDetail : Option String
deriving DecidableEq, Repr

/-- The event of a state change: no progress counts. -/
def JobEvent.ofState (jobId : JobId) (sequence : Nat) (occurredAt : DateTime) (state : JobState)
    (stage messageCode : Option String) (humanMessage : String)
    (structuredDetail : Option String) : JobEvent :=
  { jobId, sequence, occurredAt, state, stage, messageCode, humanMessage, structuredDetail,
    progressCurrent := none, progressTotal := none, progressUnit := none }

structure JobStore where
  jobs : List AnalysisJob
  events : List JobEvent
deriving DecidableEq, Repr

/-- One row of `analysis_plans`, as far as the service reads it. -/
structure PlanRow where
  status : String
  planSchema : Int
  sha256 : String
  manifestRevisionId : Int
deriving DecidableEq, Repr

/-- The tables around the job store. `scopeExclusion` is what `plan_scope_exclusion` answers
for the configured project scope (`plan.rs:177-205`). -/
structure Catalog where
  plan : Int → Option PlanRow
  /-- event id and snapshot id of a manifest revision -/
  manifest : Int → Option (Int × Int)
  eventExists : Int → Bool
  snapshotExists : Int → Bool
  scopeExclusion : Int → Except String (Option String)

def analysisPlanSchemaVersion : Int := 1

def maxStructuredDetailBytes : Nat := 4096
def maxHumanMessageBytes : Nat := 512

namespace JobStore

/-- `SELECT … FROM analysis_jobs WHERE id = ?`. -/
def job (s : JobStore) (jobId : JobId) : Option AnalysisJob := s.jobs.find? (·.id == jobId)

def eventsOf (s : JobStore) (jobId : JobId) : List JobEvent := s.events.filter (·.jobId == jobId)

def get (s : JobStore) (jobId : JobId) : Except String AnalysisJob :=
  match s.job jobId with
  | some j => .ok j
  | none => .error ("analysis job not found: " ++ jobId)

/-- `UPDATE analysis_jobs SET f WHERE id = ? AND p`. -/
def update (s : JobStore) (jobId : JobId) (p : AnalysisJob → Bool)
    (f : AnalysisJob → AnalysisJob) : JobStore :=
  { s with jobs := s.jobs.map fun j => if j.id == jobId && p j then f j else j }

/-- The number of rows such an `UPDATE` changes. -/
def rows (s : JobStore) (jobId : JobId) (p : AnalysisJob → Bool) : Nat :=
  s.jobs.countP fun j => j.id == jobId && p j

/-- `INSERT INTO analysis_jobs`: the primary key refuses an id already taken. -/
def insertJob (s : JobStore) (j : AnalysisJob) : Except String JobStore :=
  if (s.job j.id).isSome then
    .error "cannot insert job: UNIQUE constraint failed: analysis_jobs.id"
  else .ok { s with jobs := s.jobs ++ [j] }

/-! ## Events -/

/-- `COALESCE(MAX(sequence), 0) + 1`. -/
def nextSequence (s : JobStore) (jobId : JobId) : Nat :=
  ((s.eventsOf jobId).map (·.sequence)).foldr max 0 + 1

/-- `d.contains` for a needle of two characters. -/
def hasPair (a b : Char) : List Char → Bool
  | [] => false
  | [_] => false
  | x :: y :: rest => (x == a && y == b) || hasPair a b (y :: rest)

/-- `starts_with('/')`, `contains(":/")`, `contains(":\\")`. -/
def absolutePath (d : String) : Bool :=
  d.toList.head? == some '/' || hasPair ':' '/' d.toList || hasPair ':' '\\' d.toList

/-- The three refusals of `append_event_tx`, first one first. -/
def eventRefusal (ev : JobEvent) : Option String :=
  if maxHumanMessageBytes < ev.humanMessage.utf8ByteSize then
    some "job event human_message too long"
  else match ev.structuredDetail with
    | none => none
    | some d =>
      if maxStructuredDetailBytes < d.utf8ByteSize then
        some "job event structured_detail too long (bounded)"
      else if absolutePath d then
        some "job event structured_detail must not contain absolute paths"
      else none

/-- The table refuses an event of no job (foreign key) and a second event of one sequence
number (primary key). -/
def appendEventTx (s : JobStore) (ev : JobEvent) : Except String JobStore :=
  match eventRefusal ev with
  | some e => .error e
  | none =>
    if (s.job ev.jobId).isNone then
      .error "cannot append job event: FOREIGN KEY constraint failed"
    else if (s.eventsOf ev.jobId).any (·.sequence == ev.sequence) then
      .error "cannot append job event: UNIQUE constraint failed"
    else .ok { s with events := s.events ++ [ev] }

/-- `append_event`: the next sequence number, and the clock where the event has none
(`occurred = none`). -/
def appendEvent (s : JobStore) (ev : JobEvent) (occurred : Option DateTime) (now : DateTime) :
    Except String JobStore :=
  s.appendEventTx { ev with sequence := s.nextSequence ev.jobId, occurredAt := occurred.getD now }

/-! ## State changes -/

def transition (s : JobStore) (jobId : JobId) (src dst : JobState) (messageCode : Option String)
    (humanMessage : String) (now : DateTime) : Except String JobStore := do
  if !legalTransition src dst then
    throw ("illegal job transition " ++ jobId ++ ": " ++ src.asStr ++ " -> " ++ dst.asStr)
  let current ← s.get jobId
  if current.state ≠ src then
    throw ("job " ++ jobId ++ " is " ++ current.state.asStr ++ ", not " ++ src.asStr
      ++ "; refusing " ++ dst.asStr)
  let s := s.update jobId (fun _ => true) fun j =>
    { j with
      state := dst
      stage := dst.stageLabel
      finishedAt := if dst.isActive then j.finishedAt else some now }
  s.appendEventTx (.ofState jobId (s.nextSequence jobId) now dst dst.stageLabel messageCode
    humanMessage none)

def fail (s : JobStore) (jobId : JobId) (src : JobState) (code summary : String)
    (now : DateTime) : Except String JobStore := do
  if !legalTransition src failed then
    throw ("illegal transition to Failed for " ++ jobId ++ " from " ++ src.asStr)
  let current ← s.get jobId
  if current.state ≠ src then
    throw ("job " ++ jobId ++ " is not " ++ src.asStr ++ " (is " ++ current.state.asStr ++ ")")
  let s := s.update jobId (fun _ => true) fun j =>
    { j with
      state := failed
      finishedAt := some now
      errorCode := some code
      errorSummary := some summary
      cancelRequestedAt := j.cancelRequestedAt.or (some now) }
  s.appendEventTx (.ofState jobId (s.nextSequence jobId) now failed none (some code)
    ("failed: " ++ summary) none)

def completedRow (runId : Int) (now : DateTime) (j : AnalysisJob) : AnalysisJob :=
  { j with state := completed, completedRunId := some runId, finishedAt := some now, stage := none }

def complete (s : JobStore) (jobId : JobId) (runId : Int) (now : DateTime) :
    Except String JobStore := do
  let current ← s.get jobId
  if current.state ≠ publishingRun then
    throw ("job " ++ jobId ++ " is " ++ current.state.asStr
      ++ ", not PublishingRun; refusing completion")
  if s.rows jobId (·.state == publishingRun) = 0 then
    throw ("job " ++ jobId
      ++ " is not in PublishingRun; refusing completion (concurrent state change)")
  let s := s.update jobId (·.state == publishingRun) (completedRow runId now)
  s.appendEventTx (.ofState jobId (s.nextSequence jobId) now completed none
    (some "run_published") "Analysis complete; run published"
    (some ("run_id=" ++ toString runId)))

/-! ## Queueing and leases -/

/-- A row as `queue` and `retry` insert it: the columns they do not name are `NULL`. -/
def newJob (jobId : JobId) (planRevisionId : Int) (requestedBy : RequestSource) (now : DateTime)
    (attempt : Int) (originalJobId : Option JobId) (planHash : String) : AnalysisJob :=
  { id := jobId, planRevisionId, requestedBy, requestedAt := now, state := queued, attempt,
    originalJobId, planHash,
    workerId := none, leaseAcquiredAt := none, leaseExpiresAt := none, heartbeatAt := none,
    stage := none, progressCurrent := none, progressTotal := none, progressUnit := none,
    cancelRequestedAt := none, startedAt := none, finishedAt := none, errorCode := none,
    errorSummary := none, stagedArtifactRoot := none, completedRunId := none }

inductive QueueOutcome where
  | created (jobId : JobId)
  | duplicate (jobId : JobId)
deriving DecidableEq, Repr

/-- The states `queue` lists as an active duplicate. -/
def duplicateStates : List JobState :=
  [queued, claimed, discoveringArchives, acquiringArchives, parsingBaseline, freezingCohort,
    parsingUpdates, reconstructingRoutes, derivingEvidence, renderingArtifacts,
    validatingArtifacts, publishingRun, cancelRequested]

/-- The oldest active job of exactly this plan revision and hash (`service.rs:587-603`). -/
def activeDuplicate (s : JobStore) (planRevisionId : Int) (planHash : String) :
    Option AnalysisJob :=
  (sortBy (compareOn (·.requestedAt)) (s.jobs.filter fun j =>
    j.planRevisionId == planRevisionId && j.planHash == planHash
      && duplicateStates.contains j.state)).head?

/-- The plan checks of the queue transaction: the plan's `sha256` when it may be queued. -/
def queueable (c : Catalog) (planRevisionId : Int) : Except String String := do
  let some plan := c.plan planRevisionId
    | throw ("plan revision not found: " ++ toString planRevisionId)
  if plan.planSchema ≠ analysisPlanSchemaVersion then
    throw ("incompatible_plan_schema: plan " ++ toString planRevisionId ++ " is schema v"
      ++ toString plan.planSchema ++ ", current v" ++ toString analysisPlanSchemaVersion)
  let some (eventId, snapshotId) := c.manifest plan.manifestRevisionId
    | throw ("plan " ++ toString planRevisionId ++ " has no manifest revision")
  if !c.eventExists eventId || !c.snapshotExists snapshotId then
    throw "invalid_plan: referenced event or source snapshot is missing"
  if plan.status ≠ "Ready" then
    throw ("invalid_plan: plan " ++ toString planRevisionId ++ " is not Ready (status "
      ++ plan.status ++ ")")
  return plan.sha256

/-- `queue` from its transaction on. -/
def queue (s : JobStore) (c : Catalog) (planRevisionId : Int) (requestedBy : RequestSource)
    (planHash : String) (now : DateTime) (newId : JobId) :
    Except String (JobStore × QueueOutcome) := do
  let storedSha ← queueable c planRevisionId
  if let some existing := s.activeDuplicate planRevisionId planHash then
    return (s, .duplicate existing.id)
  let s ← s.insertJob (newJob newId planRevisionId requestedBy now 1 none planHash)
  let s ← s.appendEventTx (.ofState newId 1 now queued none (some "job_queued")
    "Analysis queued" (some ("plan_sha256=" ++ storedSha)))
  return (s, .created newId)

/-- The oldest queued job; ties go to the smaller id. -/
def oldestQueued (s : JobStore) : Option AnalysisJob :=
  (sortBy (compareLex (compareOn (·.requestedAt)) (compareOn (·.id)))
    (s.jobs.filter (·.state == queued))).head?

def claimNext (s : JobStore) (workerId : String) (leaseSecs : Int) (now later : DateTime) :
    Except String (JobStore × Option JobId) :=
  match s.oldestQueued with
  | none => .ok (s, none)
  | some j => do
    let s := s.update j.id (·.state == queued) fun j =>
      { j with
        state := claimed
        workerId := some workerId
        leaseAcquiredAt := some now
        leaseExpiresAt := some (later + leaseSecs)
        heartbeatAt := some now
        startedAt := some now
        stage := none }
    let s ← s.appendEventTx (.ofState j.id (s.nextSequence j.id) now claimed none
      (some "job_claimed") "Worker claimed analysis" (some ("worker_id=" ++ workerId)))
    return (s, some j.id)

/-- The states the lease operations list: executing or publishing, not `CancelRequested`. -/
def leasedStates : List JobState := stageOrder

def renewLease (s : JobStore) (jobId : JobId) (workerId : String) (leaseSecs : Int)
    (now later : DateTime) : Except String JobStore := do
  let job ← s.get jobId
  if !job.state.isActive || job.state == queued then
    throw ("job " ++ jobId ++ " is not leaseable in state " ++ job.state.asStr)
  if job.workerId ≠ some workerId then
    throw ("job " ++ jobId ++ " is leased by another worker; refusing renewal")
  let held := fun j : AnalysisJob => j.workerId == some workerId && leasedStates.contains j.state
  if s.rows jobId held = 0 then
    throw ("job " ++ jobId
      ++ " lease no longer renewable (state or worker changed); refusing renewal")
  return s.update jobId held fun j =>
    { j with heartbeatAt := some now, leaseExpiresAt := some (later + leaseSecs) }

/-- The `WHERE` clause of the stale scan. -/
def staleLease (now : DateTime) (j : AnalysisJob) : Bool :=
  leasedStates.contains j.state && j.leaseExpiresAt.any (· < now)

def expiredRow (now : DateTime) (j : AnalysisJob) : AnalysisJob :=
  { j with
    state := failed
    finishedAt := some now
    errorCode := some "worker_lease_expired"
    errorSummary := some "worker lease expired; staging preserved; explicit retry required" }

/-- One round of the loop of `mark_stale_leases`. -/
def expireLease (now : DateTime) (s : JobStore) (jobId : JobId) : Except String JobStore :=
  let s := s.update jobId (staleLease now) (expiredRow now)
  s.appendEventTx (.ofState jobId (s.nextSequence jobId) now failed none
    (some "worker_lease_expired") "Worker lease expired; job interrupted" none)

def markStaleLeases (s : JobStore) (now : DateTime) : Except String JobStore :=
  ((s.jobs.filter (staleLease now)).map (·.id)).foldlM (expireLease now) s

/-! ## Cancellation and retry -/

/-- The second half of `request_cancel`, for a job that was not `Queued` when it was read. -/
def requestCancelTx (s : JobStore) (jobId : JobId) (now : DateTime) : Except String JobStore := do
  let current ← s.get jobId
  if !current.state.isCancellable then
    throw ("job " ++ jobId ++ " cannot be cancelled in state " ++ current.state.asStr)
  if s.rows jobId (fun j => executing.contains j.state) = 0 then
    throw ("job " ++ jobId
      ++ " is no longer cancellable (state changed); refusing cancellation")
  let s := s.update jobId (fun j => executing.contains j.state) fun j =>
    { j with state := cancelRequested, cancelRequestedAt := some now }
  s.appendEventTx (.ofState jobId (s.nextSequence jobId) now cancelRequested none
    (some "cancel_requested") "Cancellation requested; worker stops at the next checkpoint" none)

/-- The transaction of `retry`: `original` is the row read before it. -/
def retryTx (s : JobStore) (original : AnalysisJob) (requestedBy : RequestSource)
    (planHash : String) (now : DateTime) (newId : JobId) : Except String JobStore := do
  let s ← s.insertJob (newJob newId original.planRevisionId requestedBy now
    (original.attempt + 1) (some original.id) planHash)
  s.appendEventTx (.ofState newId 1 now queued none (some "retry_created")
    ("Retry of " ++ original.id ++ " queued") (some ("original_job_id=" ++ original.id)))

/-! ## Columns beside the state -/

def updateProgress (s : JobStore) (jobId : JobId) (stage : String) (current total : Option Int)
    (unit : Option String) : JobStore :=
  s.update jobId (fun _ => true) fun j =>
    { j with
      stage := some stage
      progressCurrent := current
      progressTotal := total
      progressUnit := unit }

def setStagedRoot (s : JobStore) (jobId : JobId) (root : String) : JobStore :=
  s.update jobId (fun _ => true) fun j => { j with stagedArtifactRoot := some root }

end JobStore

end Inim
