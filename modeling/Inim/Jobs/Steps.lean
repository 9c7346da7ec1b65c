import Inim.Jobs.View
import Inim.Lib.Guards

/-!
# Every transaction of the service is a `JobStep` for every job

One lemma for each function of `service.rs`: from its success the checks are taken off one by
one, and what is left is one of the three shapes of `Jobs/View.lean`.
-/

namespace Inim

open JobState
open Inim.Lib

namespace JobStore

variable {s s' : JobStore} {jobId : JobId} {r : AnalysisJob} {now later : DateTime}

theorem transition_step {src dst : JobState} {code : Option String} {msg : String}
    (hwf : s.WF) (hd : dst ≠ completed) (hc : dst ≠ claimed)
    (h : s.transition jobId src dst code msg now = .ok s') :
    Steps ⟨none, some dst⟩ s s' ∧ (∀ j, j ≠ jobId → s'.view j = s.view j) ∧
      ∃ r, s.job jobId = some r ∧ r.state = src ∧
      ∃ r' ev, r'.state = dst ∧ s'.view jobId = ⟨some r', s.eventsOf jobId ++ [ev]⟩ := by
  unfold transition at h
  obtain ⟨hl, h⟩ := guard_ok h
  obtain ⟨r, hg, h⟩ := bind_ok h
  obtain ⟨hs, h⟩ := guard_ok h
  have hr := get_ok hg
  have hsrc : r.state = src := by simpa using hs
  have hleg : legalTransition r.state dst = true := by simpa [hsrc] using hl
  have hm : Moved r { r with
      state := dst
      stage := dst.stageLabel
      finishedAt := if dst.isActive then r.finishedAt else some now } := by
    refine ⟨rfl, ⟨rfl, rfl⟩, hleg, fun ha => ?_, fun ha => ?_, fun hdone => absurd hdone hd,
      fun _ => rfl, ?_⟩
    · simp only at ha
      simp [ha]
    · simp only at ha
      simp [ha]
    · by_cases hq : r.state = queued
      · rw [hq] at hleg
        exact Or.inr (Or.inl ⟨hq, (legalTransition_of_queued hleg).resolve_left hc, rfl⟩)
      · exact Or.inl ⟨rfl, rfl, hq⟩
  obtain ⟨hst, hv, hrest⟩ := steps_move hwf h (fun _ => rfl) hr rfl rfl hm rfl rfl
  exact ⟨hst, hrest, r, hr, hsrc, _, _, rfl, hv⟩

theorem fail_step {src : JobState} {code summary : String} (hwf : s.WF)
    (h : s.fail jobId src code summary now = .ok s') :
    Steps ⟨none, some failed⟩ s s' ∧ (∀ j, j ≠ jobId → s'.view j = s.view j) ∧
      ∃ r, s.job jobId = some r ∧ r.state.isActive = true ∧
      ∃ r', s'.job jobId = some r' ∧ r'.state = failed := by
  unfold fail at h
  obtain ⟨hl, h⟩ := guard_ok h
  obtain ⟨r, hg, h⟩ := bind_ok h
  obtain ⟨hs, h⟩ := guard_ok h
  have hsrc : r.state = src := by simpa using hs
  have hleg : legalTransition r.state failed = true := by simpa [hsrc] using hl
  have hm : Moved r { r with
      state := failed
      finishedAt := some now
      errorCode := some code
      errorSummary := some summary
      cancelRequestedAt := r.cancelRequestedAt.or (some now) } := by
    refine ⟨rfl, ⟨rfl, rfl⟩, hleg, by simp [isActive], fun _ => rfl, by simp, fun _ => rfl, ?_⟩
    by_cases hq : r.state = queued
    · exact Or.inr (Or.inl ⟨hq, rfl, rfl⟩)
    · exact Or.inl ⟨rfl, rfl, hq⟩
  obtain ⟨hst, hv, hrest⟩ := steps_move hwf h (fun _ => rfl) (get_ok hg) rfl rfl hm rfl rfl
  exact ⟨hst, hrest, r, get_ok hg, legalTransition_active hleg, _, congrArg JobView.row hv, rfl⟩

theorem complete_step {runId : Int} (hwf : s.WF) (h : s.complete jobId runId now = .ok s') :
    Steps ⟨none, some completed⟩ s s' ∧ (∀ j, j ≠ jobId → s'.view j = s.view j) ∧
      ∃ r, s.job jobId = some r ∧ r.state = publishingRun ∧
      ∃ r' ev, r'.state = completed ∧ r'.completedRunId = some runId ∧
        s'.view jobId = ⟨some r', s.eventsOf jobId ++ [ev]⟩ := by
  unfold complete at h
  obtain ⟨r, hg, h⟩ := bind_ok h
  obtain ⟨hs, h⟩ := guard_ok h
  obtain ⟨-, h⟩ := guard_ok h
  have hsrc : r.state = publishingRun := by simpa using hs
  have hm : Moved r (completedRow runId now r) :=
    ⟨rfl, ⟨rfl, rfl⟩, by rw [hsrc]; rfl, by simp [completedRow, isActive], fun _ => rfl, fun _ => rfl,
      fun hd => absurd rfl hd, Or.inl ⟨rfl, rfl, by simp [hsrc]⟩⟩
  obtain ⟨hst, hv, hrest⟩ :=
    steps_move hwf h (fun _ => rfl) (get_ok hg) (by simp [hsrc]) rfl hm rfl rfl
  exact ⟨hst, hrest, r, get_ok hg, hsrc, _, _, rfl, rfl, hv⟩

theorem renewLease_step {workerId : String} {leaseSecs : Int} (hwf : s.WF)
    (h : s.renewLease jobId workerId leaseSecs now later = .ok s') : Steps ⟨none, none⟩ s s' := by
  unfold renewLease at h
  obtain ⟨r, -, h⟩ := bind_ok h
  obtain ⟨-, h⟩ := guard_ok h
  obtain ⟨-, h⟩ := guard_ok h
  obtain ⟨-, h⟩ := guard_ok h
  cases h
  exact steps_touch hwf (fun _ => rfl)
    fun r => ⟨rfl, ⟨rfl, rfl⟩, rfl, rfl, rfl, rfl, fun _ => rfl⟩

theorem requestCancelTx_step (hwf : s.WF) (h : s.requestCancelTx jobId now = .ok s') :
    Steps ⟨none, some cancelRequested⟩ s s' ∧ ∃ r' ev, r'.state = cancelRequested ∧
      s'.view jobId = ⟨some r', s.eventsOf jobId ++ [ev]⟩ := by
  unfold requestCancelTx at h
  obtain ⟨r, hg, h⟩ := bind_ok h
  obtain ⟨-, h⟩ := guard_ok h
  obtain ⟨hn, h⟩ := guard_ok h
  have hex := of_rows_ne_zero hwf (get_ok hg) hn
  have hm : Moved r { r with state := cancelRequested, cancelRequestedAt := some now } := by
    have hleg : legalTransition r.state cancelRequested = true := by
      revert hex
      cases r.state <;> decide
    refine ⟨rfl, ⟨rfl, rfl⟩, hleg, fun _ => rfl, by simp [isActive], by simp, fun _ => rfl,
      Or.inl ⟨rfl, rfl, ?_⟩⟩
    intro hq
    rw [hq] at hex
    cases hex
  obtain ⟨hst, hv, -⟩ := steps_move hwf h (fun _ => rfl) (get_ok hg) hex rfl hm rfl rfl
  exact ⟨hst, _, _, rfl, hv⟩

theorem appendEvent_step {ev : JobEvent} {occurred : Option DateTime} (hwf : s.WF)
    (h : s.appendEvent ev occurred now = .ok s') : Steps ⟨none, none⟩ s s' := by
  unfold appendEvent at h
  obtain ⟨rfl, hj⟩ := appendEventTx_ok h
  refine ⟨hwf, fun j => ?_⟩
  rw [view_appendEvent]
  by_cases he : ev.jobId = j
  · subst he
    obtain ⟨r, hr⟩ := Option.isSome_iff_exists.1 hj
    simp only at hr
    simp only [if_true, view, hr]
    exact .note rfl
  · simp only [if_neg he, List.append_nil]
    exact .same _

theorem updateProgress_step {stage : String} {current total : Option Int} {unit : Option String}
    (hwf : s.WF) : Steps ⟨none, none⟩ s (s.updateProgress jobId stage current total unit) :=
  steps_touch hwf (fun _ => rfl) fun _ => ⟨rfl, ⟨rfl, rfl⟩, rfl, rfl, rfl, rfl, id⟩

theorem setStagedRoot_step {root : String} (hwf : s.WF) : Steps ⟨none, none⟩ s (s.setStagedRoot jobId root) :=
  steps_touch hwf (fun _ => rfl) fun _ => ⟨rfl, ⟨rfl, rfl⟩, rfl, rfl, rfl, rfl, id⟩

/-! ## Insertions -/

theorem newJob_created {plan : Int} {source : RequestSource} {attempt : Int}
    {original : Option JobId} {hash : String} :
    Created (newJob jobId plan source now attempt original hash) :=
  ⟨rfl, rfl, rfl, rfl⟩

theorem retryTx_step {original : AnalysisJob} {source : RequestSource} {hash : String}
    {newId : JobId} (hwf : s.WF) (h : s.retryTx original source hash now newId = .ok s') :
    Steps ⟨some newId, none⟩ s s' ∧ s.job newId = none ∧ (∀ j, j ≠ newId → s'.view j = s.view j) ∧
      ∃ r, s'.job newId = some r ∧ r.state = queued ∧
        r.planRevisionId = original.planRevisionId ∧ r.planHash = hash := by
  unfold retryTx at h
  obtain ⟨s₁, hi, h⟩ := bind_ok h
  obtain ⟨hst, hn, hv, hrest⟩ := steps_create hwf hi newJob_created rfl rfl rfl h
  exact ⟨hst, hn, hrest, _, congrArg JobView.row hv, rfl, rfl, rfl⟩

theorem queue_step {c : Catalog} {plan : Int} {source : RequestSource} {hash : String}
    {newId : JobId} {out : QueueOutcome} (hwf : s.WF)
    (h : s.queue c plan source hash now newId = .ok (s', out)) :
    (s' = s ∧ ∃ r, s.activeDuplicate plan hash = some r ∧ out = .duplicate r.id) ∨
    (s.activeDuplicate plan hash = none ∧ out = .created newId ∧ Steps ⟨some newId, none⟩ s s' ∧
      s.job newId = none ∧ (∀ j, j ≠ newId → s'.view j = s.view j) ∧
      ∃ r, s'.job newId = some r ∧ r.state = queued ∧ r.planRevisionId = plan ∧
        r.planHash = hash) := by
  unfold queue at h
  obtain ⟨sha, -, h⟩ := bind_ok h
  cases hd : s.activeDuplicate plan hash with
  | some r =>
    rw [hd] at h
    cases h
    exact Or.inl ⟨rfl, r, rfl, rfl⟩
  | none =>
    rw [hd] at h
    obtain ⟨s₁, hi, h⟩ := bind_ok h
    obtain ⟨s₂, hev, h⟩ := bind_ok h
    cases h
    obtain ⟨hst, hn, hv, hrest⟩ := steps_create hwf hi newJob_created rfl rfl rfl hev
    exact Or.inr ⟨rfl, rfl, hst, hn, hrest, _, congrArg JobView.row hv, rfl, rfl, rfl⟩

theorem mem_oldestQueued (h : s.oldestQueued = some r) : r ∈ s.jobs ∧ r.state = queued := by
  have := List.mem_of_mem_head? h
  simpa using this

theorem claimNext_step {workerId : String} {leaseSecs : Int} {out : Option JobId} (hwf : s.WF)
    (h : s.claimNext workerId leaseSecs now later = .ok (s', out)) :
    Steps ⟨none, some claimed⟩ s s' ∧ ∀ j, out = some j → ∃ r, s.job j = some r ∧ r.state = queued ∧
      ∃ r' ev, r'.state = claimed ∧ s'.view j = ⟨some r', s.eventsOf j ++ [ev]⟩ := by
  unfold claimNext at h
  cases ho : s.oldestQueued with
  | none =>
    rw [ho] at h
    cases h
    exact ⟨.refl hwf, fun j hj => by cases hj⟩
  | some r =>
    rw [ho] at h
    obtain ⟨s₁, hev, h⟩ := bind_ok h
    cases h
    obtain ⟨hmem, hq⟩ := mem_oldestQueued ho
    have hr := job_of_mem hwf hmem
    have hm : Moved r { r with
        state := claimed
        workerId := some workerId
        leaseAcquiredAt := some now
        leaseExpiresAt := some (later + leaseSecs)
        heartbeatAt := some now
        startedAt := some now
        stage := none } :=
      ⟨rfl, ⟨rfl, rfl⟩, by rw [hq]; rfl, fun _ => rfl, by simp [isActive], by simp,
        fun _ => rfl, Or.inr (Or.inr ⟨hq, rfl, rfl, rfl⟩)⟩
    obtain ⟨hst, hv, -⟩ :=
      steps_move hwf hev (fun _ => rfl) hr (by simp [hq]) rfl hm rfl rfl
    refine ⟨hst, fun j hj => ?_⟩
    cases hj
    exact ⟨r, hr, hq, _, _, rfl, hv⟩

/-! ## The stale scan -/

theorem expiredRow_moved (hs : staleLease now r = true) : Moved r (expiredRow now r) := by
  have hl : leasedStates.contains r.state = true := (Bool.and_eq_true _ _ ▸ hs).1
  have hleg : legalTransition r.state failed = true ∧ r.state ≠ queued := by
    revert hl
    cases r.state <;> decide
  exact ⟨rfl, ⟨rfl, rfl⟩, hleg.1, by simp [expiredRow, isActive], fun _ => rfl,
    by simp [expiredRow], fun _ => rfl, Or.inl ⟨rfl, rfl, hleg.2⟩⟩

/-- The scan expires the jobs of its list, each with one event, and no other. -/
theorem expireLease_run {ids : List JobId} (hwf : s.WF) (hnd : ids.Nodup)
    (hids : ∀ j ∈ ids, ∃ r, s.job j = some r ∧ staleLease now r = true)
    (h : ids.foldlM (expireLease now) s = .ok s') :
    Steps ⟨none, some failed⟩ s s' ∧ (∀ j ∈ ids, s'.job j = (s.job j).map (expiredRow now)) ∧
      ∀ j ∉ ids, s'.view j = s.view j := by
  induction ids generalizing s with
  | nil =>
    cases h
    exact ⟨.refl hwf, by simp, fun j _ => rfl⟩
  | cons a ids ih =>
    rw [List.foldlM_cons] at h
    obtain ⟨s₁, h₁, h⟩ := bind_ok h
    unfold expireLease at h₁
    obtain ⟨ha, hnd⟩ := List.nodup_cons.1 hnd
    obtain ⟨r, hr, hstale⟩ := hids a List.mem_cons_self
    obtain ⟨hst₁, hv, hrest⟩ :=
      steps_move hwf h₁ (fun _ => rfl) hr hstale rfl (expiredRow_moved hstale) rfl rfl
    have hids₁ : ∀ j ∈ ids, ∃ r, s₁.job j = some r ∧ staleLease now r = true := by
      intro j hj
      have hne : j ≠ a := fun he => ha (he ▸ hj)
      have hjob : s₁.job j = s.job j := congrArg JobView.row (hrest j hne)
      rw [hjob]
      exact hids j (List.mem_cons_of_mem _ hj)
    obtain ⟨hst, hin, hout⟩ := ih hst₁.1 hnd hids₁ h
    have hva : s'.view a = s₁.view a := hout a ha
    refine ⟨⟨hst.1, fun j => ?_⟩, fun j hj => ?_, fun j hj => ?_⟩
    · by_cases hja : j = a
      · subst hja
        rw [hva]
        exact hst₁.2 j
      · rw [← hrest j hja]
        exact hst.2 j
    · rcases List.mem_cons.1 hj with rfl | hj
      · have : s'.job j = s₁.job j := congrArg JobView.row hva
        rw [this, hr]
        exact congrArg JobView.row hv
      · have hne : j ≠ a := fun he => ha (he ▸ hj)
        have hjob : s₁.job j = s.job j := congrArg JobView.row (hrest j hne)
        rw [hin j hj, hjob]
    · have hne : j ≠ a := fun he => hj (he ▸ List.mem_cons_self)
      rw [hout j fun hm => hj (List.mem_cons_of_mem _ hm), hrest j hne]

theorem staleIds (now : DateTime) (hwf : s.WF) :
    ((s.jobs.filter (staleLease now)).map (·.id)).Nodup ∧
      ∀ j, j ∈ (s.jobs.filter (staleLease now)).map (·.id) ↔
        ∃ r, s.job j = some r ∧ staleLease now r = true := by
  refine ⟨hwf.sublist (List.filter_sublist.map _), fun j => ?_⟩
  simp only [List.mem_map, List.mem_filter]
  constructor
  · rintro ⟨r, ⟨hm, hs⟩, rfl⟩
    exact ⟨r, job_of_mem hwf hm, hs⟩
  · rintro ⟨r, hr, hs⟩
    exact ⟨r, ⟨job_mem hr, hs⟩, job_id hr⟩

theorem markStaleLeases_step (jobId : JobId) (hwf : s.WF) (h : s.markStaleLeases now = .ok s') :
    Steps ⟨none, some failed⟩ s s' ∧ (∀ r, s.job jobId = some r → staleLease now r = true →
        s'.job jobId = some (expiredRow now r)) ∧
      ((∀ r, s.job jobId = some r → staleLease now r = false) → s'.view jobId = s.view jobId) := by
  obtain ⟨hnd, hids⟩ := staleIds now hwf
  obtain ⟨hst, hin, hout⟩ := expireLease_run hwf hnd (fun j hj => (hids j).1 hj) h
  refine ⟨hst, fun r hr hs => ?_, fun hn => hout jobId fun hm => ?_⟩
  · rw [hin jobId ((hids jobId).2 ⟨r, hr, hs⟩), hr]
    rfl
  · obtain ⟨r, hr, hs⟩ := (hids jobId).1 hm
    rw [hn r hr] at hs
    cases hs

end JobStore

end Inim
