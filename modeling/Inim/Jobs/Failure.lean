import Inim.Jobs.Lease

/-!
# Does recording a failure always succeed?

`fail` writes the row and its event in one transaction, and the event log refuses a message of
more than 512 bytes (`service.rs:204`). The message of a failure is `failed: ` and the summary, so
from 505 bytes on the refusal takes the failure itself back; `execute_one` drops the error
(`worker.rs:604`) and the job stays in its executing state.

`failureRecorded_iff` is the bound, `long_summary_keeps_job_executing` a summary of 505 bytes.
-/

namespace Inim

open JobState
open Inim.Lib

namespace JobStore

variable {s s' : JobStore} {jobId : JobId} {r : AnalysisJob} {code summary : String}
  {now : DateTime}

/-- The row of a recorded failure. -/
def failedRow (code summary : String) (now : DateTime) (r : AnalysisJob) : AnalysisJob :=
  { r with
    state := failed
    finishedAt := some now
    errorCode := some code
    errorSummary := some summary
    cancelRequestedAt := r.cancelRequestedAt.or (some now) }

/-- Its event. -/
def failureEvent (s : JobStore) (jobId : JobId) (code summary : String) (now : DateTime) : JobEvent :=
  .ofState jobId (s.nextSequence jobId) now failed none (some code) ("failed: " ++ summary) none

/-- Past its checks `fail` is the update and the event. -/
theorem fail_eq (hr : s.job jobId = some r) (hl : legalTransition r.state failed = true) :
    s.fail jobId r.state code summary now =
      (s.update jobId (fun _ => true) (failedRow code summary now)).appendEventTx
        (s.failureEvent jobId code summary now) := by
  have hget : s.get jobId = .ok r := by simp only [get, hr]
  unfold fail
  rw [hget]
  simp only [hl, Bool.not_true, Bool.false_eq_true, if_false, bind, Except.bind, ne_eq,
    not_true_eq_false]
  rfl

theorem job_failed (hr : s.job jobId = some r) :
    (s.update jobId (fun _ => true) (failedRow code summary now)).job jobId =
      some (failedRow code summary now r) := by
  have hid : ∀ q, (failedRow code summary now q).id = q.id := fun _ => rfl
  rw [job_update s hid, hr]
  simp [job_id hr]

/-- The failure is in the tables: the job is `Failed`, with its code and one more event. -/
def FailureRecorded (s s' : JobStore) (jobId : JobId) (code : String) : Prop :=
  ∃ r ev, s'.view jobId = ⟨some r, s.eventsOf jobId ++ [ev]⟩ ∧ r.state = failed ∧
    r.errorCode = some code ∧ ev.state = failed ∧ ev.messageCode = some code

theorem byteSize_failed (summary : String) :
    ("failed: " ++ summary).utf8ByteSize = 8 + summary.utf8ByteSize := by
  rw [String.utf8ByteSize_append]
  rfl

theorem fail_short (hr : s.job jobId = some r) (hl : legalTransition r.state failed = true)
    (hshort : summary.utf8ByteSize ≤ 504) :
    ∃ s', s.fail jobId r.state code summary now = .ok s' ∧ FailureRecorded s s' jobId code := by
  have hmsg : eventRefusal (s.failureEvent jobId code summary now) = none := by
    refine eventRefusal_of ?_ fun d hd => by cases hd
    change ("failed: " ++ summary).utf8ByteSize ≤ 512
    rw [byteSize_failed]
    omega
  have hjob : (s.update jobId (fun _ => true) (failedRow code summary now)).job jobId =
      some (failedRow code summary now r) := job_failed hr
  refine ⟨_, (fail_eq hr hl).trans (appendEventTx_of hmsg ?_ (nextSequence_fresh s jobId)), ?_⟩
  · change ((s.update jobId (fun _ => true) (failedRow code summary now)).job jobId).isSome = true
    rw [hjob]
    rfl
  · refine ⟨failedRow code summary now r, s.failureEvent jobId code summary now, ?_, rfl, rfl, rfl,
      rfl⟩
    have hid : (s.failureEvent jobId code summary now).jobId = jobId := rfl
    rw [view_appendEvent, hjob, if_pos hid]
    rfl

theorem fail_long (hr : s.job jobId = some r) (hl : legalTransition r.state failed = true)
    (hlong : 504 < summary.utf8ByteSize) :
    s.fail jobId r.state code summary now = .error "job event human_message too long" := by
  have hmsg : eventRefusal (s.failureEvent jobId code summary now) =
      some "job event human_message too long" := by
    refine if_pos ?_
    change 512 < ("failed: " ++ summary).utf8ByteSize
    rw [byteSize_failed]
    omega
  rw [fail_eq hr hl]
  simp only [appendEventTx, hmsg]

end JobStore

/-! ## The worker -/

namespace JobSystem

open JobStore

/-- `fail_job` with nobody in between: the row is read, then the transaction runs. -/
def failJobRun (s : JobSystem) (jobId : JobId) (code summary : String) (now later : DateTime)
    (newId : JobId) : JobSystem :=
  run step s [.read (.failJob jobId code summary), .commit s.inFlight.length now later newId]

theorem failJobRun_store {s : JobSystem} {jobId : JobId} {r : AnalysisJob}
    (hr : s.store.job jobId = some r) (code summary : String) (now later : DateTime) (newId : JobId) :
    (s.failJobRun jobId code summary now later newId).store =
      match s.store.fail jobId r.state code summary now with
      | .ok store => store
      | .error _ => s.store := by
  have hget : s.store.get jobId = .ok r := by simp only [JobStore.get, hr]
  have hread : (Request.failJob jobId code summary).read s.catalog s.store =
      .ok (.fail jobId r.state code summary) := by
    simp only [Request.read, hget]
    rfl
  simp only [failJobRun, run_cons, run_nil, step, hread, List.getElem?_concat_length, Call.exec]
  cases s.store.fail jobId r.state code summary now <;> rfl

/-- A failure is recorded, by the service and by the worker, exactly up to 504 bytes of summary. -/
theorem failureRecorded_iff (s : JobSystem) {jobId : JobId} {r : AnalysisJob}
    (hr : s.store.job jobId = some r) (hl : legalTransition r.state failed = true)
    (code summary : String) (now later : DateTime) (newId : JobId) :
    ((∃ s', s.store.fail jobId r.state code summary now = .ok s' ∧
        FailureRecorded s.store s' jobId code) ∧
      ∃ r', (s.failJobRun jobId code summary now later newId).store.job jobId = some r' ∧
        r'.state = failed) ↔ summary.utf8ByteSize ≤ 504 := by
  constructor
  · rintro ⟨⟨s', hok, -⟩, -⟩
    by_contra hlong
    rw [fail_long hr hl (Nat.lt_of_not_le hlong)] at hok
    cases hok
  · intro hshort
    obtain ⟨s', hok, hrec⟩ : ∃ s', s.store.fail jobId r.state code summary now = .ok s' ∧
        FailureRecorded s.store s' jobId code := fail_short hr hl hshort
    refine ⟨⟨s', hok, hrec⟩, ?_⟩
    obtain ⟨r', ev, hview, hstate, -⟩ := hrec
    rw [failJobRun_store hr, hok]
    exact ⟨r', congrArg JobView.row hview, hstate⟩

/-- The claimed job of `claimThenDie` under a short summary. -/
theorem failureRecorded_claimedA :
    ((∃ s', (run step (start readyCatalog) claimThenDie).store.fail "a" claimedA.state
        "internal_error" "x" 2 = .ok s' ∧
      FailureRecorded (run step (start readyCatalog) claimThenDie).store s' "a" "internal_error") ∧
      ∃ r', ((run step (start readyCatalog) claimThenDie).failJobRun "a" "internal_error" "x" 2 2
        "").store.job "a" = some r' ∧ r'.state = failed) ↔ "x".utf8ByteSize ≤ 504 :=
  failureRecorded_iff (run step (start readyCatalog) claimThenDie) (r := claimedA) (by decide)
    (by decide) "internal_error" "x" 2 2 ""

/-- **Bug.** A summary of 505 bytes: the call is refused and the job is still claimed. -/
theorem long_summary_keeps_job_executing :
    let s := run step (start readyCatalog) claimThenDie
    let summary := String.ofList (List.replicate 505 'x')
    (s.store.fail "a" claimed "internal_error" summary 2).isOk = false ∧
      ((s.failJobRun "a" "internal_error" summary 2 2 "").store.job "a").map (·.state) =
        some claimed := by
  decide +kernel

end JobSystem

end Inim
