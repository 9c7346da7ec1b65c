import Inim.Jobs.Failure

/-!
# Are terminal rows frozen?

"A failed or cancelled job is immutable" (ADR `DURABLE-ANALYSIS-JOBS`). Every change of state is
guarded, so `transition`, `fail`, `complete`, the lease operations and the scan leave a row alone
that has ended (`quiet_*`). Two writes have no guard: `update_progress` (`service.rs:1172`) and the
staged root of `execute_one` (`worker.rs:534`), so the sink of a worker that lost its lease still
writes progress into the failed row. And `fail` fills `cancel_requested_at` of a job nobody asked
to cancel (`service.rs:422`).

`terminalFrozen_iff`: over every run, terminal rows keep their columns and a cancellation time
stands only with a cancellation in the log, exactly when no step of the run is one of these.
-/

namespace Inim

open JobState
open Inim.Lib

namespace JobStore

variable {s s' : JobStore} {jobId j : JobId} {p : AnalysisJob → Bool}
  {f : AnalysisJob → AnalysisJob} {ev : JobEvent} {r : AnalysisJob} {now later : DateTime}

/-- The event is that of a cancellation asked for or carried out. -/
def JobEvent.cancels (ev : JobEvent) : Prop := ev.state = cancelRequested ∨ ev.state = cancelled

instance (ev : JobEvent) : Decidable (JobEvent.cancels ev) := inferInstanceAs (Decidable (_ ∨ _))

/-- The log of the job has an accepted cancellation. -/
def CancelAccepted (s : JobStore) (j : JobId) : Prop := ∃ ev ∈ s.eventsOf j, JobEvent.cancels ev

instance (s : JobStore) (j : JobId) : Decidable (s.CancelAccepted j) :=
  inferInstanceAs (Decidable (∃ ev ∈ s.eventsOf j, JobEvent.cancels ev))

/-- A cancellation time stands only with an accepted cancellation. -/
def CancelsLogged (s : JobStore) : Prop :=
  ∀ j r, s.job j = some r → r.cancelRequestedAt.isSome = true → s.CancelAccepted j

/-- Rows that have ended stay as they are, and the log only grows. -/
structure Frozen (s s' : JobStore) : Prop where
  row : ∀ j r, s.job j = some r → r.state.isActive = false → s'.job j = some r
  log : ∀ j, s.eventsOf j <+: s'.eventsOf j

/-- No cancellation time appears. -/
def CancelsKept (s s' : JobStore) : Prop :=
  ∀ j r', s'.job j = some r' → r'.cancelRequestedAt.isSome = true →
    ∃ r, s.job j = some r ∧ r.cancelRequestedAt.isSome = true

theorem Frozen.refl (s : JobStore) : Frozen s s := ⟨fun _ _ h _ => h, fun _ => List.prefix_rfl⟩

theorem CancelsKept.refl (s : JobStore) : CancelsKept s s := fun _ r h hc => ⟨r, h, hc⟩

theorem CancelAccepted.extend (h : s.eventsOf j <+: s'.eventsOf j) (hc : s.CancelAccepted j) :
    s'.CancelAccepted j := by
  obtain ⟨ev, hev, hcancels⟩ := hc
  exact ⟨ev, h.subset hev, hcancels⟩

theorem CancelsLogged.of_kept (h : s.CancelsLogged) (hf : Frozen s s') (hk : CancelsKept s s') :
    s'.CancelsLogged := by
  intro j r' hr' hc
  obtain ⟨r, hr, hc⟩ := hk j r' hr' hc
  exact (h j r hr hc).extend (hf.log j)

/-! ## What the primitives do -/

theorem eventsOf_append (s : JobStore) (ev : JobEvent) (j : JobId) :
    ({ s with events := s.events ++ [ev] } : JobStore).eventsOf j =
      s.eventsOf j ++ if ev.jobId = j then [ev] else [] :=
  congrArg JobView.events (view_appendEvent s ev j)

theorem eventsOf_grows (s : JobStore) (ev : JobEvent) (j : JobId) :
    s.eventsOf j <+: ({ s with events := s.events ++ [ev] } : JobStore).eventsOf j := by
  rw [eventsOf_append]
  exact List.prefix_append _ _

theorem mem_eventsOf_append (s : JobStore) (ev : JobEvent) :
    ev ∈ ({ s with events := s.events ++ [ev] } : JobStore).eventsOf ev.jobId := by
  rw [eventsOf_append, if_pos rfl]
  exact List.mem_append_right _ (List.mem_singleton_self ev)

/-- An event that cancels nothing tells of no cancellation. -/
theorem cancelAccepted_append (s : JobStore) {ev : JobEvent} (h : ¬ JobEvent.cancels ev) (j : JobId) :
    ({ s with events := s.events ++ [ev] } : JobStore).CancelAccepted j ↔ s.CancelAccepted j := by
  unfold CancelAccepted
  rw [eventsOf_append]
  refine ⟨fun ⟨e, he, hcancels⟩ => ?_, fun ⟨e, he, hcancels⟩ =>
    ⟨e, List.mem_append_left _ he, hcancels⟩⟩
  rcases List.mem_append.1 he with he | he
  · exact ⟨e, he, hcancels⟩
  · split at he
    · rw [List.mem_singleton.1 he] at hcancels
      exact absurd hcancels h
    · cases he

/-- An update whose condition no ended row meets. -/
theorem frozen_update (hf : ∀ r, (f r).id = r.id)
    (hp : ∀ r, s.job jobId = some r → p r = true → r.state.isActive = true) :
    Frozen s (s.update jobId p f) := by
  refine ⟨fun j r hr hend => ?_, fun j => List.prefix_rfl⟩
  rw [job_update s hf, hr, Option.map_some]
  refine congrArg some (if_neg fun hmatch => ?_)
  rw [Bool.and_eq_true, beq_iff_eq] at hmatch
  obtain ⟨hid, hpr⟩ := hmatch
  have hj : j = jobId := (job_id hr).symm.trans hid
  subst hj
  rw [hp r hr hpr] at hend
  cases hend

theorem Frozen.append (h : Frozen s s') (ev : JobEvent) :
    Frozen s { s' with events := s'.events ++ [ev] } :=
  ⟨h.row, fun j => (h.log j).trans (eventsOf_grows s' ev j)⟩

/-- An update that leaves cancellation times alone. -/
theorem cancelsKept_update (hf : ∀ r, (f r).id = r.id)
    (hc : ∀ r, (f r).cancelRequestedAt = r.cancelRequestedAt) :
    CancelsKept s (s.update jobId p f) := by
  intro j r' hr' hcancel
  rw [job_update s hf] at hr'
  obtain ⟨r, hr, rfl⟩ := Option.map_eq_some_iff.1 hr'
  refine ⟨r, hr, ?_⟩
  split at hcancel
  · exact hc r ▸ hcancel
  · exact hcancel

theorem frozen_update_append (h : (s.update jobId p f).appendEventTx ev = .ok s')
    (hf : ∀ r, (f r).id = r.id)
    (hp : ∀ r, s.job jobId = some r → p r = true → r.state.isActive = true) : Frozen s s' := by
  obtain ⟨rfl, -⟩ := appendEventTx_ok h
  exact (frozen_update hf hp).append ev

theorem cancelsKept_update_append (h : (s.update jobId p f).appendEventTx ev = .ok s')
    (hf : ∀ r, (f r).id = r.id) (hc : ∀ r, (f r).cancelRequestedAt = r.cancelRequestedAt) :
    CancelsKept s s' := by
  obtain ⟨rfl, -⟩ := appendEventTx_ok h
  exact cancelsKept_update hf hc

/-- A new row with its first event. -/
theorem quiet_insert {s₁ : JobStore} (hi : s.insertJob r = .ok s₁) (hc : r.cancelRequestedAt = none)
    (h : s₁.appendEventTx ev = .ok s') : Frozen s s' ∧ CancelsKept s s' := by
  obtain ⟨rfl, hnew⟩ := insertJob_ok hi
  obtain ⟨rfl, -⟩ := appendEventTx_ok h
  have hjob : ∀ j, ({ s with jobs := s.jobs ++ [r], events := s.events ++ [ev] } : JobStore).job j =
      if r.id = j then some r else s.job j := fun j => job_insert s r j hnew
  refine ⟨⟨fun j q hq _ => ?_, fun j => eventsOf_grows { s with jobs := s.jobs ++ [r] } ev j⟩, ?_⟩
  · rw [hjob]
    split
    · next hid => rw [← hid, hnew] at hq; cases hq
    · exact hq
  · intro j r' hr' hcancel
    rw [hjob] at hr'
    split at hr'
    · cases hr'
      rw [hc] at hcancel
      cases hcancel
    · exact ⟨r', hr', hcancel⟩

/-! ## The transactions -/

theorem active_of_leased {r : AnalysisJob} (h : leasedStates.contains r.state = true) :
    r.state.isActive = true := by
  revert h
  cases r.state <;> decide

theorem quiet_queue {c : Catalog} {plan : Int} {source : RequestSource} {hash : String}
    {newId : JobId} {out : QueueOutcome} (h : s.queue c plan source hash now newId = .ok (s', out)) :
    Frozen s s' ∧ CancelsKept s s' := by
  unfold queue at h
  obtain ⟨sha, -, h⟩ := bind_ok h
  cases hd : s.activeDuplicate plan hash with
  | some r =>
    simp only [hd] at h
    cases h
    exact ⟨.refl s, .refl s⟩
  | none =>
    simp only [hd] at h
    obtain ⟨s₁, hi, h⟩ := bind_ok h
    obtain ⟨s₂, hev, h⟩ := bind_ok h
    cases h
    exact quiet_insert hi rfl hev

theorem quiet_retryTx {source : RequestSource} {hash : String} {newId : JobId}
    (h : s.retryTx r source hash now newId = .ok s') : Frozen s s' ∧ CancelsKept s s' := by
  unfold retryTx at h
  obtain ⟨s₁, hi, h⟩ := bind_ok h
  exact quiet_insert hi rfl h

theorem quiet_transition {src dst : JobState} {code : Option String} {msg : String}
    (h : s.transition jobId src dst code msg now = .ok s') : Frozen s s' ∧ CancelsKept s s' := by
  unfold transition at h
  obtain ⟨hl, h⟩ := guard_ok h
  obtain ⟨r, hg, h⟩ := bind_ok h
  obtain ⟨hs, h⟩ := guard_ok h
  have hsrc : r.state = src := by simpa using hs
  have hactive : r.state.isActive = true := legalTransition_active (by simpa [hsrc] using hl)
  refine ⟨frozen_update_append h (fun _ => rfl) fun q hq _ => ?_,
    cancelsKept_update_append h (fun _ => rfl) fun _ => rfl⟩
  rw [get_ok hg] at hq
  cases hq
  exact hactive

theorem frozen_fail {src : JobState} {code summary : String}
    (h : s.fail jobId src code summary now = .ok s') : Frozen s s' := by
  unfold fail at h
  obtain ⟨hl, h⟩ := guard_ok h
  obtain ⟨r, hg, h⟩ := bind_ok h
  obtain ⟨hs, h⟩ := guard_ok h
  have hsrc : r.state = src := by simpa using hs
  have hactive : r.state.isActive = true := legalTransition_active (by simpa [hsrc] using hl)
  refine frozen_update_append h (fun _ => rfl) fun q hq _ => ?_
  rw [get_ok hg] at hq
  cases hq
  exact hactive

/-- What a success of `fail` says of the job before. -/
theorem fail_ok_iff {src : JobState} {code summary : String} :
    (∃ s', s.fail jobId src code summary now = .ok s') ↔
      ∃ r, s.job jobId = some r ∧ r.state = src ∧ legalTransition src failed = true ∧
        summary.utf8ByteSize ≤ 504 := by
  constructor
  · rintro ⟨s', h⟩
    have hok := h
    unfold fail at h
    obtain ⟨hl, h⟩ := guard_ok h
    obtain ⟨r, hg, h⟩ := bind_ok h
    obtain ⟨hs, -⟩ := guard_ok h
    have hsrc : r.state = src := by simpa using hs
    subst hsrc
    have hl : legalTransition r.state failed = true := by simpa using hl
    refine ⟨r, get_ok hg, rfl, hl, ?_⟩
    by_contra hlong
    rw [fail_long (get_ok hg) hl (Nat.lt_of_not_le hlong)] at hok
    cases hok
  · rintro ⟨r, hr, rfl, hl, hshort⟩
    obtain ⟨s', hok, -⟩ := fail_short hr hl hshort
    exact ⟨s', hok⟩

/-- After `fail` the row has a cancellation time, old or new, and the log no other cancellation. -/
theorem fail_cancels {src : JobState} {code summary : String}
    (h : s.fail jobId src code summary now = .ok s') :
    (∃ r', s'.job jobId = some r' ∧ r'.cancelRequestedAt.isSome = true) ∧
      (∀ j, s'.CancelAccepted j ↔ s.CancelAccepted j) ∧
      ∀ j, j ≠ jobId → s'.job j = s.job j := by
  obtain ⟨r, hr, rfl, hl, -⟩ := fail_ok_iff.1 ⟨s', h⟩
  rw [fail_eq hr hl] at h
  have hid : ∀ q, (failedRow code summary now q).id = q.id := fun _ => rfl
  obtain ⟨rfl, -⟩ := appendEventTx_ok h
  have hcancel : (r.cancelRequestedAt.or (some now)).isSome = true := by
    cases r.cancelRequestedAt <;> rfl
  have hno : ¬ JobEvent.cancels (s.failureEvent jobId code summary now) := by
    rintro (hstate | hstate) <;> cases hstate
  refine ⟨⟨failedRow code summary now r, job_failed hr, hcancel⟩,
    cancelAccepted_append (s.update jobId (fun _ => true) (failedRow code summary now)) hno,
    fun j hj => ?_⟩
  change (s.update jobId (fun _ => true) (failedRow code summary now)).job j = s.job j
  rw [job_update s hid]
  cases hjob : s.job j with
  | none => rfl
  | some q =>
    have hne : q.id ≠ jobId := fun he => hj ((job_id hjob).symm.trans he)
    simp [hne]

theorem quiet_complete {runId : Int} (h : s.complete jobId runId now = .ok s') :
    Frozen s s' ∧ CancelsKept s s' := by
  unfold complete at h
  obtain ⟨r, hg, h⟩ := bind_ok h
  obtain ⟨hs, h⟩ := guard_ok h
  obtain ⟨-, h⟩ := guard_ok h
  refine ⟨frozen_update_append h (fun _ => rfl) fun q _ hq => ?_,
    cancelsKept_update_append h (fun _ => rfl) fun _ => rfl⟩
  rw [beq_iff_eq] at hq
  rw [hq]
  rfl

theorem quiet_renewLease {workerId : String} {leaseSecs : Int}
    (h : s.renewLease jobId workerId leaseSecs now later = .ok s') :
    Frozen s s' ∧ CancelsKept s s' := by
  unfold renewLease at h
  obtain ⟨r, -, h⟩ := bind_ok h
  obtain ⟨-, h⟩ := guard_ok h
  obtain ⟨-, h⟩ := guard_ok h
  obtain ⟨-, h⟩ := guard_ok h
  cases h
  refine ⟨frozen_update (fun _ => rfl) fun q _ hq => ?_,
    cancelsKept_update (fun _ => rfl) fun _ => rfl⟩
  rw [Bool.and_eq_true] at hq
  exact active_of_leased hq.2

theorem quiet_claimNext {workerId : String} {leaseSecs : Int} {out : Option JobId}
    (h : s.claimNext workerId leaseSecs now later = .ok (s', out)) :
    Frozen s s' ∧ CancelsKept s s' := by
  unfold claimNext at h
  cases ho : s.oldestQueued with
  | none =>
    rw [ho] at h
    cases h
    exact ⟨.refl s, .refl s⟩
  | some r =>
    rw [ho] at h
    obtain ⟨s₁, hev, h⟩ := bind_ok h
    cases h
    refine ⟨frozen_update_append hev (fun _ => rfl) fun q _ hq => ?_,
      cancelsKept_update_append hev (fun _ => rfl) fun _ => rfl⟩
    rw [beq_iff_eq] at hq
    rw [hq]
    rfl

theorem Frozen.trans {s'' : JobStore} (h : Frozen s s') (h' : Frozen s' s'') : Frozen s s'' :=
  ⟨fun j r hr hend => h'.row j r (h.row j r hr hend) hend, fun j => (h.log j).trans (h'.log j)⟩

theorem CancelsKept.trans {s'' : JobStore} (h : CancelsKept s s') (h' : CancelsKept s' s'') :
    CancelsKept s s'' := fun j r hr hc => by
  obtain ⟨r', hr', hc'⟩ := h' j r hr hc
  exact h j r' hr' hc'

theorem quiet_markStaleLeases (h : s.markStaleLeases now = .ok s') :
    Frozen s s' ∧ CancelsKept s s' := by
  refine foldlM_invariant (P := fun t => Frozen s t ∧ CancelsKept s t) h ⟨.refl s, .refl s⟩ ?_
  rintro a - t t' ⟨hfrozen, hkept⟩ ht
  unfold expireLease at ht
  refine ⟨hfrozen.trans (frozen_update_append ht (fun _ => rfl) fun q _ hq => ?_),
    hkept.trans (cancelsKept_update_append ht (fun _ => rfl) fun _ => rfl)⟩
  unfold staleLease at hq
  rw [Bool.and_eq_true] at hq
  exact active_of_leased hq.1

/-- The row of a requested cancellation. -/
def cancelRequestedRow (now : DateTime) (r : AnalysisJob) : AnalysisJob :=
  { r with state := cancelRequested, cancelRequestedAt := some now }

/-- A request sets the time together with its event. -/
theorem requestCancelTx_quiet (h : s.requestCancelTx jobId now = .ok s') :
    Frozen s s' ∧ (s.CancelsLogged → s'.CancelsLogged) := by
  unfold requestCancelTx at h
  obtain ⟨r, hg, h⟩ := bind_ok h
  obtain ⟨-, h⟩ := guard_ok h
  obtain ⟨-, h⟩ := guard_ok h
  have hfrozen : Frozen s s' := by
    refine frozen_update_append h (fun _ => rfl) fun q _ hq => ?_
    revert hq
    cases q.state <;> decide
  refine ⟨hfrozen, fun hlogged j r' hr' hc => ?_⟩
  obtain ⟨rfl, -⟩ := appendEventTx_ok h
  by_cases hj : j = jobId
  · subst hj
    exact ⟨_, mem_eventsOf_append _ _, Or.inl rfl⟩
  · have hid : ∀ q, (cancelRequestedRow now q).id = q.id := fun _ => rfl
    change (s.update jobId _ (cancelRequestedRow now)).job j = some r' at hr'
    rw [job_update s hid] at hr'
    obtain ⟨q, hq, rfl⟩ := Option.map_eq_some_iff.1 hr'
    have hne : q.id ≠ jobId := fun he => hj ((job_id hq).symm.trans he)
    simp only [beq_eq_false_iff_ne.2 hne, Bool.false_and, Bool.false_eq_true, if_false] at hc
    exact (hlogged j q hq hc).extend (hfrozen.log j)

theorem quiet_appendEvent {occurred : Option DateTime} (h : s.appendEvent ev occurred now = .ok s') :
    Frozen s s' ∧ CancelsKept s s' := by
  unfold appendEvent at h
  obtain ⟨rfl, -⟩ := appendEventTx_ok h
  exact ⟨(Frozen.refl s).append _, .refl s⟩

/-- The row after a write of progress. -/
def progressRow (stage : String) (current total : Option Int) (unit : Option String)
    (r : AnalysisJob) : AnalysisJob :=
  { r with
    stage := some stage
    progressCurrent := current
    progressTotal := total
    progressUnit := unit }

/-- The row after the registration of the staged artifacts. -/
def stagedRow (root : String) (r : AnalysisJob) : AnalysisJob :=
  { r with stagedArtifactRoot := some root }

/-- A write without a guard leaves ended rows alone exactly where it writes what they hold. -/
theorem frozen_write_iff (hf : ∀ r, (f r).id = r.id) :
    (∀ j r, s.job j = some r → r.state.isActive = false →
        (s.update jobId (fun _ => true) f).job j = some r) ↔
      ∀ r, s.job jobId = some r → r.state.isActive = false → f r = r := by
  have hrow : ∀ j r, s.job j = some r → (s.update jobId (fun _ => true) f).job j =
      some (if j = jobId then f r else r) := by
    intro j r hr
    rw [job_update s hf, hr, Option.map_some]
    simp [job_id hr]
  constructor
  · intro h r hr hend
    have hsame := h jobId r hr hend
    rw [hrow jobId r hr, if_pos rfl] at hsame
    exact Option.some.inj hsame
  · intro h j r hr hend
    rw [hrow j r hr]
    split
    · next hj => subst hj; rw [h r hr hend]
    · rfl

/-- Such a write leaves the cancellation times and the log alone. -/
theorem logged_write_iff (hlogged : s.CancelsLogged) (hf : ∀ r, (f r).id = r.id)
    (hc : ∀ r, (f r).cancelRequestedAt = r.cancelRequestedAt) :
    ((∀ j r, s.job j = some r → r.state.isActive = false →
        (s.update jobId (fun _ => true) f).job j = some r) ∧
      (s.update jobId (fun _ => true) f).CancelsLogged) ↔
      ∀ r, s.job jobId = some r → r.state.isActive = false → f r = r := by
  have hafter : (s.update jobId (fun _ => true) f).CancelsLogged := by
    intro j r' hr' hcancel
    obtain ⟨r, hr, hcancel⟩ := cancelsKept_update hf hc j r' hr' hcancel
    exact hlogged j r hr hcancel
  exact (and_iff_left hafter).trans (frozen_write_iff hf)

/-- The time that `fail` sets stands with a cancellation if the job had one. -/
theorem logged_fail_iff {src : JobState} {code summary : String} (hlogged : s.CancelsLogged)
    (h : s.fail jobId src code summary now = .ok s') :
    ((∀ j r, s.job j = some r → r.state.isActive = false → s'.job j = some r) ∧ s'.CancelsLogged) ↔
      s.CancelAccepted jobId := by
  obtain ⟨⟨r', hr', hcancel⟩, hlog, hrest⟩ := fail_cancels h
  constructor
  · rintro ⟨-, hafter⟩
    exact (hlog jobId).1 (hafter jobId r' hr' hcancel)
  · intro haccepted
    refine ⟨(frozen_fail h).row, fun j q hq hc => (hlog j).2 ?_⟩
    by_cases hj : j = jobId
    · subst hj
      exact haccepted
    · rw [hrest j hj] at hq
      exact hlogged j q hq hc

end JobStore

/-! ## Runs -/

namespace JobSystem

open JobStore

/-- The step leaves every row alone that has ended. -/
def KeepsTerminal (s : JobSystem) (a : Action) : Prop :=
  ∀ j r, s.store.job j = some r → r.state.isActive = false → (s.step a).store.job j = some r

/-- What the transaction would write without a guard, or would add to a job nobody cancelled. -/
def Call.Guarded (st : JobStore) : Call → Prop
  | .updateProgress jobId stage current total unit =>
    ∀ r, st.job jobId = some r → r.state.isActive = false →
      progressRow stage current total unit r = r
  | .setStagedRoot jobId root =>
    ∀ r, st.job jobId = some r → r.state.isActive = false → stagedRow root r = r
  | .fail jobId src _ summary =>
    ∀ r, st.job jobId = some r → r.state = src → legalTransition src failed = true →
      summary.utf8ByteSize ≤ 504 → st.CancelAccepted jobId
  | _ => True

/-- The condition on a step. -/
def Guarded (s : JobSystem) : Action → Prop
  | .commit i _ _ _ => ∀ c, s.inFlight[i]? = some c → Call.Guarded s.store c
  | _ => True

theorem exec_guarded {c : Catalog} {st st' : JobStore} {now later : DateTime} {newId : JobId}
    {call : Call} {out : Answer} (hlogged : st.CancelsLogged)
    (h : call.exec c st now later newId = .ok (st', out)) :
    ((∀ j r, st.job j = some r → r.state.isActive = false → st'.job j = some r) ∧
      st'.CancelsLogged) ↔ Call.Guarded st call := by
  have hquiet : ∀ {t : JobStore}, Frozen st t ∧ CancelsKept st t →
      (((∀ j r, st.job j = some r → r.state.isActive = false → t.job j = some r) ∧
        t.CancelsLogged) ↔ True) := fun hq =>
    iff_of_true ⟨hq.1.row, hlogged.of_kept hq.1 hq.2⟩ trivial
  cases call with
  | queue plan source hash =>
    obtain ⟨⟨t, o⟩, ht, he⟩ := map_ok h
    cases he
    exact hquiet (quiet_queue ht)
  | claimNext worker secs =>
    obtain ⟨⟨t, o⟩, ht, he⟩ := map_ok h
    cases he
    exact hquiet (quiet_claimNext ht)
  | renewLease jobId worker secs =>
    obtain ⟨t, ht, he⟩ := map_ok h
    cases he
    exact hquiet (quiet_renewLease ht)
  | transition jobId src dst hdst code msg =>
    obtain ⟨t, ht, he⟩ := map_ok h
    cases he
    exact hquiet (quiet_transition ht)
  | fail jobId src code summary =>
    obtain ⟨t, ht, he⟩ := map_ok h
    cases he
    obtain ⟨r, hr, hsrc, hl, hshort⟩ := fail_ok_iff.1 ⟨_, ht⟩
    rw [logged_fail_iff hlogged ht]
    exact ⟨fun haccepted _ _ _ _ _ => haccepted, fun hguard => hguard r hr hsrc hl hshort⟩
  | complete jobId runId =>
    obtain ⟨t, ht, he⟩ := map_ok h
    cases he
    exact hquiet (quiet_complete ht)
  | markStaleLeases at_ =>
    obtain ⟨t, ht, he⟩ := map_ok h
    cases he
    exact hquiet (quiet_markStaleLeases ht)
  | requestCancel jobId =>
    obtain ⟨t, ht, he⟩ := map_ok h
    cases he
    obtain ⟨hfrozen, hkeeps⟩ := requestCancelTx_quiet ht
    exact iff_of_true ⟨hfrozen.row, hkeeps hlogged⟩ trivial
  | retry original source hash =>
    obtain ⟨t, ht, he⟩ := map_ok h
    cases he
    exact hquiet (quiet_retryTx ht)
  | appendEvent ev occurred =>
    obtain ⟨t, ht, he⟩ := map_ok h
    cases he
    exact hquiet (quiet_appendEvent ht)
  | updateProgress jobId label current total unit =>
    cases h
    exact logged_write_iff (f := progressRow label current total unit) hlogged (fun _ => rfl)
      fun _ => rfl
  | setStagedRoot jobId root =>
    cases h
    exact logged_write_iff (f := stagedRow root) hlogged (fun _ => rfl) fun _ => rfl

/-- **One step**: it keeps the ended rows and the cancellation times right exactly when guarded. -/
theorem step_guarded {s : JobSystem} (hlogged : s.store.CancelsLogged) (a : Action) :
    (s.KeepsTerminal a ∧ (s.step a).store.CancelsLogged) ↔ s.Guarded a := by
  have hsame : (s.step a).store = s.store → s.KeepsTerminal a ∧ (s.step a).store.CancelsLogged := by
    intro h
    refine ⟨fun j r hr _ => ?_, ?_⟩
    · rw [h]
      exact hr
    · rw [h]
      exact hlogged
  cases a with
  | catalog c => exact iff_of_true (hsame rfl) trivial
  | read r =>
    refine iff_of_true (hsame ?_) trivial
    simp only [step]
    split <;> rfl
  | commit i now later newId =>
    cases hi : s.inFlight[i]? with
    | none =>
      refine iff_of_true (hsame (by simp [step, hi])) fun c hc => ?_
      rw [hi] at hc
      cases hc
    | some c =>
      have hcond : s.Guarded (.commit i now later newId) ↔ Call.Guarded s.store c := by
        change (∀ c', s.inFlight[i]? = some c' → Call.Guarded s.store c') ↔ _
        rw [hi]
        exact ⟨fun h => h c rfl, fun h c' hc' => Option.some.inj hc' ▸ h⟩
      rw [hcond]
      cases he : c.exec s.catalog s.store now later newId with
      | ok p =>
        obtain ⟨st, out⟩ := p
        have hst : (s.step (.commit i now later newId)).store = st := by simp [step, hi, he]
        unfold KeepsTerminal
        rw [hst]
        exact exec_guarded hlogged he
      | error e =>
        refine iff_of_true (hsame (by simp [step, hi, he])) ?_
        cases c with
        | fail jobId src code summary =>
          intro r hr hsrc hl hshort
          obtain ⟨st, hok⟩ : ∃ st, s.store.fail jobId src code summary now = .ok st :=
            fail_ok_iff.2 ⟨r, hr, hsrc, hl, hshort⟩
          simp [Call.exec, hok, Except.map] at he
        | updateProgress => cases he
        | setStagedRoot => cases he
        | _ => trivial

/-- Over every run: ended rows keep their columns and a cancellation time stands only with an
accepted cancellation, exactly when every transaction of the run is guarded. -/
theorem terminalFrozen_iff (c : Catalog) (as : List Action) :
    ((∀ pre a post, as = pre ++ a :: post → (run step (start c) pre).KeepsTerminal a) ∧
      ∀ pre, pre <+: as → (run step (start c) pre).store.CancelsLogged) ↔
      ∀ pre a post, as = pre ++ a :: post → (run step (start c) pre).Guarded a := by
  constructor
  · rintro ⟨hkeeps, hlogged⟩ pre a post heq
    have hbefore := hlogged pre (heq ▸ List.prefix_append pre (a :: post))
    have hafter := hlogged (pre ++ [a]) ⟨post, by rw [heq, List.append_assoc, List.singleton_append]⟩
    rw [run_concat] at hafter
    exact (step_guarded hbefore a).1 ⟨hkeeps pre a post heq, hafter⟩
  · intro hguarded
    have hlogged : ∀ pre, pre <+: as → (run step (start c) pre).store.CancelsLogged := by
      intro pre
      induction pre using List.reverseRecOn with
      | nil => exact fun _ j r hr => by cases hr
      | append_singleton pre a ih =>
        rintro ⟨post, hpost⟩
        rw [List.append_assoc, List.singleton_append] at hpost
        rw [run_concat]
        exact ((step_guarded (ih ⟨a :: post, hpost⟩) a).2 (hguarded pre a post hpost.symm)).2
    exact ⟨fun pre a post heq => ((step_guarded (hlogged pre ⟨a :: post, heq.symm⟩) a).2
      (hguarded pre a post heq)).1, hlogged⟩

/-- Job `a` is claimed; its lease runs out and the scan fails it; then its worker, which has not
noticed, reports progress. -/
def progressAfterExpiry : List Action :=
  claimThenDie ++ call (.markStaleLeases 1000) 1000 "" ++
    call (.updateProgress "a" "ParsingUpdates" (some 3) (some 9) none) 1001 ""

/-- **Bug.** The failed row has a new stage and new counts. And a failure nobody asked for leaves a
cancellation time. -/
theorem expired_job_takes_progress :
    ((run step (start readyCatalog) (claimThenDie ++ call (.markStaleLeases 1000) 1000 "")).store.job
        "a").map (fun r => (r.state, r.stage, r.progressCurrent)) = some (failed, none, none) ∧
    ((run step (start readyCatalog) progressAfterExpiry).store.job "a").map
        (fun r => (r.state, r.stage, r.progressCurrent)) =
      some (failed, some "ParsingUpdates", some 3) ∧
    ((run step (start readyCatalog) (claimThenDie ++
        call (.failJob "a" "internal_error" "x") 2 "")).store.job "a").map (·.cancelRequestedAt) =
      some (some 2) ∧
    ¬ (run step (start readyCatalog) (claimThenDie ++
        call (.failJob "a" "internal_error" "x") 2 "")).store.CancelAccepted "a" := by
  decide

end JobSystem

end Inim
