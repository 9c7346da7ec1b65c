import Inim.Jobs.Steps
import Inim.Lib.Runs

/-!
# Workers and clients over one job store

A call of the service is two moves: what it reads before its transaction (`Request.read`), and
the transaction (`Call.exec`). Between them any other caller may move, so a call that was read
waits in `inFlight` with what it saw; a caller that dies leaves it there for good. The
transactions themselves are serialisable (SQLite), so each is one step.

| here | there |
| --- | --- |
| `Request.queue` … `Request.retry` | `queue`, `claim_next`, … called by the CLI, the web server and the workers |
| `Request.stage`                   | `DbSink::transition_to` (`worker.rs:247-257`): `transition` to a working stage |
| `Request.enterPublishing`, `failJob` | `enter_publishing`, `fail_job` (`publish.rs:397-418`): read the state, then `transition` or `fail` from it |
| `Request.cancelScopeExcluded`, `observeCancel`, `requestCancel` | `service.rs:832-953` |
| `Request.appendEvent`, `updateProgress`, `setStagedRoot` | the other writes of the worker (`worker.rs:276-327`, `:534-540`) |
| `Action.catalog`                  | an import, or an edit of the scope policy |

`transition` is public, but its callers only ever name a stage or `Cancelled` as the target:
`Claimed` is `claim_next`'s and `Completed` is `complete`'s. `stage` carries that as a field.
-/

namespace Inim

open JobState
open Inim.Lib

inductive Request where
  | queue (planRevisionId : Int) (requestedBy : RequestSource) (planHash : String)
  | claimNext (workerId : String) (leaseSecs : Int)
  | renewLease (jobId : JobId) (workerId : String) (leaseSecs : Int)
  | stage (jobId : JobId) (src dst : JobState) (hdst : dst.stageLabel.isSome = true)
      (messageCode : Option String) (humanMessage : String)
  | enterPublishing (jobId : JobId)
  | observeCancel (jobId : JobId)
  | cancelScopeExcluded (jobId : JobId)
  | requestCancel (jobId : JobId)
  | fail (jobId : JobId) (src : JobState) (code summary : String)
  | failJob (jobId : JobId) (code summary : String)
  | complete (jobId : JobId) (runId : Int)
  | markStaleLeases (now : DateTime)
  | retry (jobId : JobId) (requestedBy : RequestSource) (planHash : String)
  | appendEvent (ev : JobEvent) (occurred : Option DateTime)
  | updateProgress (jobId : JobId) (stage : String) (current total : Option Int)
      (unit : Option String)
  | setStagedRoot (jobId : JobId) (root : String)

/-- A transaction about to run, with what its caller read before it. -/
inductive Call where
  | queue (planRevisionId : Int) (requestedBy : RequestSource) (planHash : String)
  | claimNext (workerId : String) (leaseSecs : Int)
  | renewLease (jobId : JobId) (workerId : String) (leaseSecs : Int)
  | transition (jobId : JobId) (src dst : JobState)
      (hdst : dst.stageLabel.isSome = true ∨ dst = cancelled)
      (messageCode : Option String) (humanMessage : String)
  | fail (jobId : JobId) (src : JobState) (code summary : String)
  | complete (jobId : JobId) (runId : Int)
  | markStaleLeases (now : DateTime)
  | requestCancel (jobId : JobId)
  | retry (original : AnalysisJob) (requestedBy : RequestSource) (planHash : String)
  | appendEvent (ev : JobEvent) (occurred : Option DateTime)
  | updateProgress (jobId : JobId) (stage : String) (current total : Option Int)
      (unit : Option String)
  | setStagedRoot (jobId : JobId) (root : String)

/-- `SCOPE_EXCLUDED_CODE` and `SCOPE_EXCLUDED_MESSAGE` (`plan.rs:208-212`). -/
def scopeExcludedMessage : String :=
  "project_scope_excluded: "
    ++ "This event is outside the configured project scope and cannot be queued."

/-- `plan_scope_exclusion` before `queue` and `retry`. -/
def checkScope (c : Catalog) (planRevisionId : Int) : Except String Unit := do
  match ← c.scopeExclusion planRevisionId with
  | some _ => throw scopeExcludedMessage
  | none => return ()

/-- What a caller reads and checks before its transaction begins. -/
def Request.read (c : Catalog) (s : JobStore) : Request → Except String Call
  | .queue plan source hash => do
    checkScope c plan
    return .queue plan source hash
  | .claimNext worker secs => return .claimNext worker secs
  | .renewLease jobId worker secs => return .renewLease jobId worker secs
  | .stage jobId src dst hdst code msg => return .transition jobId src dst (.inl hdst) code msg
  | .enterPublishing jobId => do
    let job ← s.get jobId
    return .transition jobId job.state publishingRun (.inl rfl) (some "publishing")
      "Publishing completed run"
  | .observeCancel jobId =>
    return .transition jobId cancelRequested cancelled (.inr rfl) (some "cancelled")
      "Cancellation observed; no run published"
  | .cancelScopeExcluded jobId => do
    let job ← s.get jobId
    if job.state ≠ queued ∧ job.state ≠ claimed then
      throw ("job " ++ jobId ++ " cannot be scope-cancelled in state " ++ job.state.asStr)
    return .transition jobId job.state cancelled (.inr rfl) (some "excluded_by_project_scope")
      "Job is outside the configured project scope; cancelled before execution"
  | .requestCancel jobId => do
    let job ← s.get jobId
    if !job.state.isCancellable then
      throw ("job " ++ jobId ++ " cannot be cancelled in state " ++ job.state.asStr)
    if job.state = queued then
      return .transition jobId queued cancelled (.inr rfl) (some "cancelled")
        "Cancelled before execution"
    return .requestCancel jobId
  | .fail jobId src code summary => return .fail jobId src code summary
  | .failJob jobId code summary => do
    let job ← s.get jobId
    return .fail jobId job.state code summary
  | .complete jobId runId => return .complete jobId runId
  | .markStaleLeases now => return .markStaleLeases now
  | .retry jobId source hash => do
    let original ← s.get jobId
    checkScope c original.planRevisionId
    if !original.state.isRetryable then
      throw ("job " ++ jobId ++ " cannot be retried in state " ++ original.state.asStr)
    let some plan := c.plan original.planRevisionId
      | throw "invalid_plan: original plan revision no longer exists"
    if plan.status ≠ "Ready" then
      throw ("invalid_plan: plan " ++ toString original.planRevisionId
        ++ " is no longer Ready (status " ++ plan.status ++ "); create a new plan revision")
    return .retry original source hash
  | .appendEvent ev occurred => return .appendEvent ev occurred
  | .updateProgress jobId label current total unit =>
    return .updateProgress jobId label current total unit
  | .setStagedRoot jobId root => return .setStagedRoot jobId root

/-- What a transaction answers its caller, where the answer matters to a worker. -/
inductive Answer where
  | done
  | queued (out : JobStore.QueueOutcome)
  | claimed (jobId : Option JobId)
deriving DecidableEq, Repr

def Call.exec (c : Catalog) (s : JobStore) (now later : DateTime) (newId : JobId) :
    Call → Except String (JobStore × Answer)
  | .queue plan source hash =>
    (s.queue c plan source hash now newId).map fun (s, out) => (s, .queued out)
  | .claimNext worker secs =>
    (s.claimNext worker secs now later).map fun (s, out) => (s, .claimed out)
  | .renewLease jobId worker secs =>
    (s.renewLease jobId worker secs now later).map (·, .done)
  | .transition jobId src dst _ code msg =>
    (s.transition jobId src dst code msg now).map (·, .done)
  | .fail jobId src code summary => (s.fail jobId src code summary now).map (·, .done)
  | .complete jobId runId => (s.complete jobId runId now).map (·, .done)
  | .markStaleLeases at_ => (s.markStaleLeases at_).map (·, .done)
  | .requestCancel jobId => (s.requestCancelTx jobId now).map (·, .done)
  | .retry original source hash => (s.retryTx original source hash now newId).map (·, .done)
  | .appendEvent ev occurred => (s.appendEvent ev occurred now).map (·, .done)
  | .updateProgress jobId stage current total unit =>
    .ok (s.updateProgress jobId stage current total unit, .done)
  | .setStagedRoot jobId root => .ok (s.setStagedRoot jobId root, .done)

/-- `queue` and `retry` insert a row; the others may move rows to one state. -/
def Call.effect (newId : JobId) : Call → Effect
  | .queue _ _ _ | .retry _ _ _ => ⟨some newId, none⟩
  | .claimNext _ _ => ⟨none, some claimed⟩
  | .transition _ _ dst _ _ _ => ⟨none, some dst⟩
  | .fail _ _ _ _ | .markStaleLeases _ => ⟨none, some failed⟩
  | .complete _ _ => ⟨none, some completed⟩
  | .requestCancel _ => ⟨none, some cancelRequested⟩
  | .renewLease _ _ _ | .appendEvent _ _ | .updateProgress _ _ _ _ _ | .setStagedRoot _ _ =>
    ⟨none, none⟩

structure JobSystem where
  catalog : Catalog
  store : JobStore
  inFlight : List Call

inductive Action where
  | catalog (c : Catalog)
  | read (r : Request)
  | commit (i : Nat) (now later : DateTime) (newId : JobId)

namespace JobSystem

def start (c : Catalog) : JobSystem := ⟨c, ⟨[], []⟩, []⟩

/-- The transaction that `commit i` runs, and its result. -/
def committed (s : JobSystem) : Action → Option (Call × Except String (JobStore × Answer))
  | .catalog _ => none
  | .read _ => none
  | .commit i now later newId =>
    (s.inFlight[i]?).map fun c => (c, c.exec s.catalog s.store now later newId)

def step (s : JobSystem) : Action → JobSystem
  | .catalog c => { s with catalog := c }
  | .read r =>
    match r.read s.catalog s.store with
    | .ok c => { s with inFlight := s.inFlight ++ [c] }
    | .error _ => s
  | .commit i now later newId =>
    match s.inFlight[i]? with
    | none => s
    | some c =>
      { s with
        inFlight := s.inFlight.eraseIdx i
        store := match c.exec s.catalog s.store now later newId with
          | .ok (store, _) => store
          | .error _ => s.store }

/-! ## Every step is a `JobStep` for every job -/

variable {s : JobSystem} {a : Action}

theorem stage_target {dst : JobState} (h : dst.stageLabel.isSome = true ∨ dst = cancelled) :
    dst ≠ completed ∧ dst ≠ claimed := by
  revert h
  cases dst <;> decide

theorem exec_step {c : Catalog} {st st' : JobStore} {now later : DateTime} {newId : JobId}
    {call : Call} {out : Answer} (hwf : st.WF)
    (h : call.exec c st now later newId = .ok (st', out)) : JobStore.Steps (call.effect newId) st st' := by
  cases call with
  | queue plan source hash =>
    obtain ⟨⟨t, o⟩, ht, he⟩ := map_ok h
    cases he
    rcases JobStore.queue_step hwf ht with ⟨rfl, -⟩ | ⟨-, -, hst, -⟩
    · exact .refl hwf
    · exact hst
  | claimNext worker secs =>
    obtain ⟨⟨t, o⟩, ht, he⟩ := map_ok h
    cases he
    exact (JobStore.claimNext_step hwf ht).1
  | renewLease jobId worker secs =>
    obtain ⟨t, ht, he⟩ := map_ok h
    cases he
    exact JobStore.renewLease_step hwf ht
  | transition jobId src dst hdst code msg =>
    obtain ⟨t, ht, he⟩ := map_ok h
    cases he
    exact (JobStore.transition_step hwf (stage_target hdst).1 (stage_target hdst).2 ht).1
  | fail jobId src code summary =>
    obtain ⟨t, ht, he⟩ := map_ok h
    cases he
    exact (JobStore.fail_step hwf ht).1
  | complete jobId runId =>
    obtain ⟨t, ht, he⟩ := map_ok h
    cases he
    exact (JobStore.complete_step hwf ht).1
  | markStaleLeases at_ =>
    obtain ⟨t, ht, he⟩ := map_ok h
    cases he
    exact (JobStore.markStaleLeases_step "" hwf ht).1
  | requestCancel jobId =>
    obtain ⟨t, ht, he⟩ := map_ok h
    cases he
    exact (JobStore.requestCancelTx_step hwf ht).1
  | retry original source hash =>
    obtain ⟨t, ht, he⟩ := map_ok h
    cases he
    exact (JobStore.retryTx_step hwf ht).1
  | appendEvent ev occurred =>
    obtain ⟨t, ht, he⟩ := map_ok h
    cases he
    exact JobStore.appendEvent_step hwf ht
  | updateProgress jobId label current total unit =>
    cases h
    exact JobStore.updateProgress_step hwf
  | setStagedRoot jobId root =>
    cases h
    exact JobStore.setStagedRoot_step hwf

/-- A step changes the tables only by committing a transaction that succeeds. -/
theorem step_store (s : JobSystem) (a : Action) :
    (s.step a).store = s.store ∨ ∃ c st out, s.committed a = some (c, .ok (st, out)) ∧
      (s.step a).store = st := by
  cases a with
  | catalog c => exact Or.inl rfl
  | read r =>
    left
    simp only [step]
    split <;> rfl
  | commit i now later newId =>
    cases hi : s.inFlight[i]? with
    | none => exact Or.inl (by simp [step, hi])
    | some c =>
      cases he : c.exec s.catalog s.store now later newId with
      | error e => exact Or.inl (by simp [step, hi, he])
      | ok p =>
        obtain ⟨st, out⟩ := p
        exact Or.inr ⟨c, st, out, by simp [committed, hi, he], by simp [step, hi, he]⟩

/-- A successful commit, as a transaction on the current tables. -/
theorem committed_exec {c : Call} {st : JobStore} {out : Answer}
    (h : s.committed a = some (c, .ok (st, out))) :
    (s.step a).store = st ∧ ∃ now later newId,
      c.exec s.catalog s.store now later newId = .ok (st, out) := by
  cases a with
  | catalog c => cases h
  | read r => cases h
  | commit i now later newId =>
    simp only [committed, Option.map_eq_some_iff, Prod.mk.injEq] at h
    obtain ⟨c', hi, rfl, he⟩ := h
    exact ⟨by simp [step, hi, he], now, later, newId, he⟩

theorem step_steps (hwf : s.store.WF) (a : Action) :
    ∃ e, JobStore.Steps e s.store (s.step a).store := by
  rcases step_store s a with h | ⟨c, st, out, hc, hst⟩
  · rw [h]
    exact ⟨⟨none, none⟩, .refl hwf⟩
  · obtain ⟨-, now, later, newId, he⟩ := committed_exec hc
    rw [hst]
    exact ⟨_, exec_step hwf he⟩

end JobSystem

end Inim
