import Inim.Jobs.Duplicates

/-!
# What the stale-lease scan recovers

`mark_stale_leases` (`service.rs:767-825`) fails the jobs whose lease ran out. Its list of
states is that of `renew_lease`: executing or publishing. A job whose cancellation was asked
for is in `CancelRequested`, which is not in the list although `(CancelRequested, Failed)` is
legal; if its worker dies before it observes the request, no scan ever ends it, and `queue`
keeps answering with it as the active duplicate of its plan.
-/

namespace Inim

open JobState
open Inim.Lib

namespace JobStore

variable {st : JobStore} {now : DateTime}

theorem le_foldr_max {l : List Nat} {n : Nat} (h : n ∈ l) : n ≤ l.foldr max 0 := by
  induction l with
  | nil => cases h
  | cons a l ih =>
    rw [List.foldr_cons]
    rcases List.mem_cons.1 h with rfl | h
    · exact le_max_left _ _
    · exact (ih h).trans (le_max_right _ _)

/-- The next sequence number is free, whatever is in the log. -/
theorem nextSequence_fresh (st : JobStore) (j : JobId) :
    (st.eventsOf j).any (·.sequence == st.nextSequence j) = false := by
  rw [List.any_eq_false]
  intro e he
  have hle : e.sequence ≤ ((st.eventsOf j).map (·.sequence)).foldr max 0 :=
    le_foldr_max (List.mem_map_of_mem he)
  simp only [nextSequence, beq_iff_eq]
  omega

/-- One round of the scan goes through for every job in the table. -/
theorem expireLease_ok {j : JobId} (now : DateTime) (h : (st.job j).isSome = true) :
    ∃ st', expireLease now st j = .ok st' ∧
      ∀ k, (st.job k).isSome = true → (st'.job k).isSome = true := by
  have hrow : ∀ k, (st.job k).isSome = true →
      ((st.update j (staleLease now) (expiredRow now)).job k).isSome = true := by
    intro k hk
    have hid : ∀ r, (expiredRow now r).id = r.id := fun _ => rfl
    rw [job_update st hid, Option.isSome_map]
    exact hk
  have hmsg : "Worker lease expired; job interrupted".utf8ByteSize ≤ maxHumanMessageBytes := by
    decide
  unfold expireLease
  refine ⟨_, appendEventTx_of (eventRefusal_of hmsg ?_) (hrow j h) (nextSequence_fresh _ j), hrow⟩
  intro d hd
  cases hd

theorem expireLeases_ok {ids : List JobId} (h : ∀ j ∈ ids, (st.job j).isSome = true) :
    ∃ st', ids.foldlM (expireLease now) st = .ok st' := by
  induction ids generalizing st with
  | nil => exact ⟨st, rfl⟩
  | cons a ids ih =>
    obtain ⟨st₁, h₁, hkeep⟩ := expireLease_ok now (h a List.mem_cons_self)
    obtain ⟨st', h'⟩ := ih fun j hj => hkeep j (h j (List.mem_cons_of_mem _ hj))
    exact ⟨st', by rw [List.foldlM_cons, h₁]; exact h'⟩

/-- The scan never fails. -/
theorem markStaleLeases_ok (hwf : st.WF) (now : DateTime) :
    ∃ st', st.markStaleLeases now = .ok st' := by
  refine expireLeases_ok fun j hj => ?_
  obtain ⟨r, hr, -⟩ := ((staleIds now hwf).2 j).1 hj
  rw [hr]
  rfl

theorem mem_leasedStates {q : JobState} (ha : q.isActive = true) (hq : q ≠ queued) :
    leasedStates.contains q = true ↔ q ≠ cancelRequested := by
  revert ha hq
  cases q <;> decide

end JobStore

namespace JobSystem

/-- **What a scan after the expiry does.** In every reachable state, for every claimed
non-terminal job whose lease ran out before `now`: the scan at `now` succeeds, and it ends the
job, so that the job no longer counts as active for its plan, exactly when no cancellation of
it is pending. -/
theorem staleScan_recovers_iff (c : Catalog) (as : List Action) (now e : DateTime)
    (r : AnalysisJob) (hr : r ∈ (run step (start c) as).store.jobs)
    (ha : r.state.isActive = true) (hw : r.workerId.isSome = true)
    (hl : r.leaseExpiresAt = some e) (hnow : e < now) :
    ∃ st' r', (run step (start c) as).store.markStaleLeases now = .ok st' ∧
      st'.job r.id = some r' ∧ r'.planRevisionId = r.planRevisionId ∧ r'.planHash = r.planHash ∧
      (r'.state.isActive = false ↔ r.state ≠ cancelRequested) ∧
      (JobStore.duplicateStates.contains r'.state = true ↔ r.state = cancelRequested) := by
  have hinv := inv_run c as
  generalize run step (start c) as = s at hr hinv
  have hjob := JobStore.job_of_mem hinv.wf hr
  have hok := (hinv.ok r.id).row r hjob
  have hnq : r.state ≠ queued := by
    intro hq
    rw [hok.unclaimed hq] at hw
    cases hw
  have hstale : JobStore.staleLease now r = true ↔ r.state ≠ cancelRequested := by
    rw [JobStore.staleLease, Bool.and_eq_true, JobStore.mem_leasedStates ha hnq, hl]
    simp [hnow]
  obtain ⟨st', hst'⟩ := JobStore.markStaleLeases_ok hinv.wf now
  obtain ⟨-, hexp, hsame⟩ := JobStore.markStaleLeases_step r.id hinv.wf hst'
  by_cases hc : r.state = cancelRequested
  · have hkeep : st'.view r.id = s.store.view r.id := by
      refine hsame fun q hq => ?_
      rw [hjob] at hq
      cases hq
      rw [Bool.eq_false_iff]
      exact fun hs => hstale.1 hs hc
    have hrow : st'.job r.id = some r := (congrArg JobView.row hkeep).trans hjob
    exact ⟨st', r, hst', hrow, rfl, rfl, by simp [hc, isActive],
      by rw [JobStore.mem_duplicateStates, hc]; decide⟩
  · refine ⟨st', JobStore.expiredRow now r, hst', hexp r hjob (hstale.2 hc), rfl, rfl, ?_, ?_⟩
    · simp [JobStore.expiredRow, isActive, hc]
    · rw [JobStore.mem_duplicateStates]
      simp [JobStore.expiredRow, isActive, hc]

/-- Job `a` is queued and claimed; its worker dies. -/
def claimThenDie : List Action :=
  call (.queue 1 .cli "h") 0 "a" ++ call (.claimNext "w" 90) 1 ""

/-- The row of job `a` after `claimThenDie`. -/
def claimedA : AnalysisJob :=
  { JobStore.newJob "a" 1 .cli 0 1 none "h" with
    state := claimed, workerId := some "w", leaseAcquiredAt := some 1,
    leaseExpiresAt := some 91, heartbeatAt := some 1, startedAt := some 1 }

theorem staleScan_recovers_claimedA :
    ∃ st' r', (run step (start readyCatalog) claimThenDie).store.markStaleLeases 100 = .ok st' ∧
      st'.job "a" = some r' ∧ r'.planRevisionId = 1 ∧ r'.planHash = "h" ∧
      (r'.state.isActive = false ↔ claimed ≠ cancelRequested) ∧
      (JobStore.duplicateStates.contains r'.state = true ↔ claimed = cancelRequested) :=
  staleScan_recovers_iff readyCatalog claimThenDie 100 91 claimedA (by decide) rfl rfl rfl
    (by decide)

/-- The same, with a cancellation asked for before the worker dies. -/
def cancelThenDie : List Action := claimThenDie ++ call (.requestCancel "a") 2 ""

/-- **Bug.** A scan long after the expiry leaves the job in `CancelRequested`, and queueing its
plan again creates nothing. -/
theorem staleScan_skips_cancelRequested :
    ((run step (start readyCatalog) cancelThenDie).store.job "a").map
        (fun r => (r.state, r.workerId, r.leaseExpiresAt)) =
      some (cancelRequested, some "w", some 91) ∧
    ((run step (start readyCatalog)
        (cancelThenDie ++ call (.markStaleLeases 1000) 1000 "")).store.job "a").map (·.state) =
      some cancelRequested ∧
    (run step (start readyCatalog) (cancelThenDie ++ call (.markStaleLeases 1000) 1000 "" ++
        call (.queue 1 .cli "h") 1001 "b")).store.job "b" = none := by
  decide

end JobSystem

end Inim
