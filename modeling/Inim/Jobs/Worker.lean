import Inim.Catalog.Verdicts
import Inim.Jobs.Publish
import Inim.Lib.Interference

/-!
# The worker as a program (`worker.rs:28-837`, `execution.rs:121-196`)

| here | there |
| --- | --- |
| `validJobId`                     | `valid_job_id` (`worker.rs:134-143`) |
| `ProgressEvent`, `Analysis`      | what `run_inner_impl` does to the job while it runs: its emits (`orchestrate.rs:131`, `:1497`), its looks at the flag (`check_cancel`, `:122`, and `:1385`, `:1504`), its end |
| `executeAnalysis`                | `execute_analysis` (`execution.rs:121-158`) with `run_inner` and `run_real_analysis` (`orchestrate.rs:80-172`) |
| `classifyFailure`                | `classify_failure` (`execution.rs:161-196`) |
| `transitionTo`, `emit`           | `DbSink` (`worker.rs:247-330`) |
| `failJob`, `cancelJob`           | `worker.rs:29`, `:839-853` |
| `publish`                        | `worker.rs:726-837`, with `publish_staged_run` (`publish.rs:194-222`) |
| `executeOne`                     | `worker.rs:460-614` |
| `workerRound`                    | one round of the loop of `run_worker` (`worker.rs:395-443`) |

The worker shares the tables with everybody else, and each of its statements on them is one call: it
acts on the tables as they are by then. The rest of the world answers the worker once per job
(`Surroundings`): the inputs it materialises, its directories, the checks of the staged files. The
analysis is any tree of emits and looks at the flag. Its stages are those of the pipeline, each the
name of a working state short of publication; it ends as cancelled only where it has seen the flag.

Whether an emit comes within the throttle of the last one is up to the clock (`soon`). The texts on
standard error, the staging files and the heartbeat row are left out.
-/

namespace Inim

open JobState
open Inim.Lib

/-- 32 lowercase hexadecimal digits. -/
def validJobId (id : JobId) : Bool :=
  id.utf8ByteSize == 32 && id.toList.all fun c => c.isDigit || ('a' ≤ c && c ≤ 'f')

/-! ## The analysis -/

/-- A stage the pipeline names: a working state before publication. -/
structure WorkStage where
  state : JobState
  working : state ≠ claimed ∧ executing.contains state = true

theorem WorkStage.label (s : WorkStage) : s.state.stageLabel.isSome = true := by
  obtain ⟨state, hne, hex⟩ := s
  revert hne hex
  cases state <;> decide

structure ProgressEvent where
  stage : WorkStage
  message : String
  current : Option Nat
  total : Option Nat
  unit : Option String

inductive Analysis where
  | ended (outcome : Except String AnalysisOutcome)
  | emit (ev : ProgressEvent) (soon : Bool) (next : Analysis)
  | poll (next : Bool → Analysis)

def cancelledMarker : String := "__inim_cancelled__"

inductive ExecutionResult where
  | staged
  | cancelled
  | failed (code summary : String)
deriving DecidableEq, Repr

/-- `failure.contains(needle)`. -/
def mentions (text needle : String) : Bool := decide (needle.toList <:+: text.toList)

/-- On the lowercase text. -/
def classifyFailure (lower : String) : String :=
  if mentions lower "broker discovery failed" || mentions lower "broker query failed" then
    "source_discovery_failed"
  else if mentions lower "not cached" || mentions lower "offline" then "archive_not_cached"
  else if mentions lower "no rib found" || mentions lower "archive not found" then "archive_not_found"
  else if mentions lower "checksum" || mentions lower "sha256" || mentions lower "hash mismatch" then
    "archive_checksum_mismatch"
  else if mentions lower "rate limit" || mentions lower "429" || mentions lower "retry-after" then
    "archive_rate_limited"
  else if mentions lower "forbidden" || mentions lower "403" then "archive_forbidden"
  else if mentions lower "failed to cache rib" || mentions lower "failed to cache update" then
    "archive_not_found"
  else if mentions lower "rib parse" || mentions lower "baseline" then "baseline_parse_failed"
  else if mentions lower "update" && mentions lower "parse" then "update_parse_failed"
  else if mentions lower "output" || mentions lower "write" then "artifact_publication_failed"
  else "internal_error"

/-- `run_inner`, `run_real_analysis` and the `match` of `execute_analysis`. -/
def executionResult (toLowercase : String → String) : Except String AnalysisOutcome → ExecutionResult
  | .error e =>
    if e = cancelledMarker ∨ e = "cancelled" then .cancelled
    else .failed (classifyFailure (toLowercase e)) e
  | .ok (.incomplete failure) =>
    if failure = "cancelled" then .cancelled
    else .failed (classifyFailure (toLowercase failure)) failure
  | .ok (.completed _) | .ok (.insufficientVisibility _) => .staged

/-- It ends as cancelled only where it has seen the flag. -/
def Analysis.Honest (toLowercase : String → String) : Bool → Analysis → Prop
  | seen, .ended outcome => executionResult toLowercase outcome = .cancelled → seen = true
  | seen, .emit _ _ next => next.Honest toLowercase seen
  | seen, .poll next => (next false).Honest toLowercase seen ∧ (next true).Honest toLowercase true

/-- What the worker meets on one job outside the tables. -/
structure Surroundings where
  toLowercase : String → String
  /-- `materialize_inputs` -/
  materialized : Except String Unit
  /-- `event_id_from_job`, in `execute_one` and again in `publish` -/
  eventId : Except String Unit
  eventIdAgain : Except String Unit
  /-- `create_dir_all` of the staging directory -/
  eventDir : Except String Unit
  analysis : Analysis
  honest : analysis.Honest toLowercase false
  /-- `write_execution_metadata`, `validate_staged` -/
  metadata : Except String Unit
  validated : Except String Unit
  /-- the rename of `publish_staged_run`, and the errors of the import beside those of the run row -/
  renamed : Except String Unit
  imported : Except String Unit
  /-- how the final directory is shown in its errors -/
  finalDir : String
  startedAt : DateTime

/-! ## The world and the calls on it -/

/-- `watched` is the job of the last heartbeat thread, `cancel` its flag. -/
structure WorkerWorld where
  catalog : Catalog
  store : JobStore
  runs : List RunRow
  artifacts : List ArtifactRow
  now : DateTime
  later : DateTime
  watched : Option JobId
  beating : Bool
  cancel : Bool

inductive WorkerOp where
  | scopeExclusion (planRevisionId : Int)
  | get (jobId : JobId)
  | read (r : Request)
  | commit (c : Call)
  | staleScan
  | claim (workerId : String) (leaseSecs : Int)
  | spawnHeartbeat (jobId : JobId)
  | stopHeartbeat
  | loadCancel
  | importRun (jobId : JobId) (planId : Int) (startedAt : DateTime)

def WorkerOp.Answer : WorkerOp → Type
  | .scopeExclusion _ => Except String (Option String)
  | .get _ => Except String AnalysisJob
  | .read _ => Except String Call
  | .commit _ | .staleScan => Except String Unit
  | .claim _ _ => Except String (Option JobId)
  | .spawnHeartbeat _ | .stopHeartbeat => Unit
  | .loadCancel => Bool
  | .importRun _ _ _ => Except String Nat

abbrev WorkerProg := Prog WorkerOp WorkerOp.Answer

namespace WorkerWorld

def commit (w : WorkerWorld) (c : Call) : WorkerWorld × Except String Unit :=
  match c.exec w.catalog w.store w.now w.later "" with
  | .ok (store, _) => ({ w with store }, .ok ())
  | .error e => (w, .error e)

def act (w : WorkerWorld) : (op : WorkerOp) → WorkerWorld × op.Answer
  | .scopeExclusion plan => (w, w.catalog.scopeExclusion plan)
  | .get jobId => (w, w.store.get jobId)
  | .read r => (w, r.read w.catalog w.store)
  | .commit c => w.commit c
  | .staleScan => w.commit (.markStaleLeases w.now)
  | .claim workerId secs =>
    match w.store.claimNext workerId secs w.now w.later with
    | .ok (store, jobId) => ({ w with store }, .ok jobId)
    | .error e => (w, .error e)
  | .spawnHeartbeat jobId => ({ w with watched := some jobId, beating := true, cancel := false }, ())
  | .stopHeartbeat => ({ w with beating := false }, ())
  | .loadCancel => (w, w.cancel)
  | .importRun jobId planId startedAt =>
    match insertRun w.runs planId startedAt with
    | .ok (runs, runId) =>
      ({ w with runs, artifacts := insertArtifact w.artifacts ⟨runId, jobId⟩ }, .ok runId)
    | .error e => (w, .error e)

end WorkerWorld

/-! ## The worker -/

namespace Worker

def call (o : WorkerOp) : WorkerProg o.Answer := Prog.op o

/-- A function of the service: what it reads, then its transaction. -/
def service (r : Request) : WorkerProg (Except String Unit) := do
  match ← call (.read r) with
  | .error e => pure (.error e)
  | .ok c => call (.commit c)

def failJob (jobId : JobId) (code summary : String) : WorkerProg (Except String Unit) :=
  service (.failJob jobId code summary)

def cancelJob (jobId : JobId) : WorkerProg (Except String Unit) := do
  match ← call (.get jobId) with
  | .error e => pure (.error e)
  | .ok job =>
    if job.state = cancelRequested then service (.observeCancel jobId)
    else do
      let _ ← service (.requestCancel jobId)
      pure (.ok ())

/-- The new state of the sink. -/
def transitionTo (jobId : JobId) (state : JobState) (stage : WorkStage) : WorkerProg JobState :=
  if state = stage.state then pure state
  else if legalTransition state stage.state then do
    match ← call (.commit (.transition jobId state stage.state (.inl stage.label) none "")) with
    | .ok () => pure stage.state
    | .error _ => pure state
  else pure state

def omittedEvent (jobId : JobId) (state : JobState) (stage : WorkStage) : JobEvent :=
  { jobId, sequence := 0, occurredAt := 0, state, stage := some stage.state.asStr,
    messageCode := some "stage_omitted",
    humanMessage := "stage " ++ stage.state.asStr ++ " omitted: not applicable after " ++ state.asStr,
    progressCurrent := none, progressTotal := none, progressUnit := none, structuredDetail := none }

def progressEvent (jobId : JobId) (state : JobState) (ev : ProgressEvent) : JobEvent :=
  { jobId, sequence := 0, occurredAt := 0, state, stage := some ev.stage.state.asStr,
    messageCode := some ev.stage.state.asStr, humanMessage := ev.message,
    progressCurrent := ev.current.map Int.ofNat, progressTotal := ev.total.map Int.ofNat,
    progressUnit := ev.unit, structuredDetail := none }

def emit (jobId : JobId) (state : JobState) (ev : ProgressEvent) (soon : Bool) :
    WorkerProg JobState := do
  let state ← transitionTo jobId state ev.stage
  if state ≠ ev.stage.state then
    let _ ← call (.commit (.appendEvent (omittedEvent jobId state ev.stage) none))
  if soon && ev.current.isNone then pure state
  else
    let _ ← call (.commit (.updateProgress jobId ev.stage.state.asStr (ev.current.map Int.ofNat)
      (ev.total.map Int.ofNat) ev.unit))
    let _ ← call (.commit (.appendEvent (progressEvent jobId state ev) none))
    pure state

/-- The pipeline with the sink in `state`. -/
def runAnalysis (toLowercase : String → String) (jobId : JobId) :
    JobState → Analysis → WorkerProg ExecutionResult
  | _, .ended outcome => pure (executionResult toLowercase outcome)
  | state, .emit ev soon next => do
    let state ← emit jobId state ev soon
    runAnalysis toLowercase jobId state next
  | state, .poll next => do
    match ← call .loadCancel with
    | true => runAnalysis toLowercase jobId state (next true)
    | false => runAnalysis toLowercase jobId state (next false)

def executeAnalysis (sur : Surroundings) (jobId : JobId) : WorkerProg ExecutionResult := do
  match ← call .loadCancel with
  | true => pure .cancelled
  | false => runAnalysis sur.toLowercase jobId claimed sur.analysis

/-- `publish_staged_run`. -/
def publishStagedRun (sur : Surroundings) (job : AnalysisJob) : WorkerProg (Except String Nat) :=
  let importFailed := fun e : String => "catalog_import_failed: " ++ e ++
    "; final directory left unreferenced at " ++ sur.finalDir ++ "; inspect before cleanup"
  match sur.renamed with
  | .error e => pure (.error e)
  | .ok () =>
    match sur.imported with
    | .error e => pure (.error (importFailed e))
    | .ok () => do
      match ← call (.importRun job.id job.planRevisionId sur.startedAt) with
      | .error e => pure (.error (importFailed e))
      | .ok runId => pure (.ok runId)

/-- `publish` once the job is in `PublishingRun`. -/
def publishEntered (sur : Surroundings) (job : AnalysisJob) : WorkerProg Bool :=
  match sur.validated with
  | .error e => do
    let _ ← failJob job.id "artifact_validation_failed" e
    pure false
  | .ok () => do
    match ← publishStagedRun sur job with
    | .error e => do
      let _ ← failJob job.id "catalog_import_failed" e
      pure false
    | .ok runId =>
      match ← call (.commit (.complete job.id runId)) with
      | .ok () => pure true
      | .error _ => pure false

def publish (sur : Surroundings) (job : AnalysisJob) : WorkerProg Bool :=
  match sur.eventIdAgain with
  | .error e => do
    let _ ← failJob job.id "internal_error" e
    pure false
  | .ok () =>
    match sur.metadata with
    | .error e => do
      let _ ← failJob job.id "artifact_validation_failed" e
      pure false
    | .ok () => do
      match ← service (.enterPublishing job.id) with
      | .ok () => publishEntered sur job
      | .error e =>
        -- a cancellation was accepted before the publication began
        if mentions e "CancelRequested" || mentions e "not Claimed" then do
          let _ ← cancelJob job.id
          pure false
        else do
          let _ ← failJob job.id "artifact_publication_failed" e
          pure false

/-- `execute_one` once the staging directory is there. -/
def executeStaged (sur : Surroundings) (job : AnalysisJob) : WorkerProg Bool := do
  let _ ← call (.commit (.setStagedRoot job.id ("data/jobs/" ++ job.id ++ "/staging")))
  call (.spawnHeartbeat job.id)
  let result ← executeAnalysis sur job.id
  call .stopHeartbeat
  match result with
  | .staged =>
    match ← call .loadCancel with
    | true => do
      let _ ← cancelJob job.id
      pure false
    | false => publish sur job
  | .cancelled => do
    let _ ← cancelJob job.id
    pure false
  | .failed code summary => do
    let _ ← failJob job.id code summary
    pure false

/-- `execute_one` once the job is found in scope. -/
def executeInScope (sur : Surroundings) (job : AnalysisJob) : WorkerProg Bool :=
  match sur.materialized with
  | .error e => do
    let _ ← failJob job.id "invalid_plan" e
    pure false
  | .ok () =>
    match sur.eventId with
    | .error e => do
      let _ ← failJob job.id "invalid_plan" e
      pure false
    | .ok () =>
      match sur.eventDir with
      | .error e => do
        let _ ← failJob job.id "artifact_publication_failed" e
        pure false
      | .ok () => executeStaged sur job

def executeOne (sur : Surroundings) (job : AnalysisJob) : WorkerProg Bool :=
  if validJobId job.id then do
    match ← call (.scopeExclusion job.planRevisionId) with
    | .error _ => pure false
    | .ok (some _) => do
      let _ ← service (.cancelScopeExcluded job.id)
      pure true
    | .ok none => executeInScope sur job
  else pure false

/-- `claim_next`: the row is read once the claim is committed. -/
def claimNext (workerId : String) (leaseSecs : Int) : WorkerProg (Except String (Option AnalysisJob)) := do
  match ← call (.claim workerId leaseSecs) with
  | .error e => pure (.error e)
  | .ok none => pure (.ok none)
  | .ok (some jobId) =>
    match ← call (.get jobId) with
    | .error e => pure (.error e)
    | .ok job => pure (.ok (some job))

end Worker

end Inim
