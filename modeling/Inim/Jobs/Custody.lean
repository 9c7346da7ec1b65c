import Inim.Jobs.Agreement
import Inim.Jobs.Safety
import Inim.Jobs.Worker

/-!
# What others may do to a job while its worker has it

A claimed job has a worker, and no one else moves it, with two exceptions: the stale scan fails it, and a
client asks for its cancellation. `Spares` says of a call that it is one of those of others, `Others` are
all their steps, the worker's own heartbeat thread among them, and `Rely` is what these leave a worker:
its rows stay its rows, their states only drift (`Drifts`), and the flag of its heartbeat is raised only
for a job that is no longer executing.

The scope policy stays readable throughout: where it is not, `execute_one` returns at once and the job
stays claimed (`executeOne_unreadable`).
-/

namespace Inim

open JobState
open Inim.Lib

/-! ## States -/

/-- What others make of the state of a job they do not have. -/
def Drifts (cancels : Prop) (p q : JobState) : Prop :=
  q = p ∨ (executing.contains p = true ∧ (q = failed ∨ cancels ∧ q = cancelRequested)) ∨
    (p = publishingRun ∧ q = failed)

/-- Nothing is left to do for the worker: the job is terminal, or somebody else's cancellation waits. -/
def Through (cancels : Prop) (p : JobState) : Prop :=
  p.isActive = false ∨ cancels ∧ p = cancelRequested

section States
variable {cancels : Prop} {p q r : JobState}

theorem Drifts.refl (p : JobState) : Drifts cancels p p := .inl rfl

theorem Drifts.trans (hpq : Drifts cancels p q) (hqr : Drifts cancels q r) : Drifts cancels p r := by
  rcases hpq with rfl | hpq
  · exact hqr
  · have hq : executing.contains q = false ∧ q ≠ publishingRun := by
      rcases hpq with ⟨-, rfl | ⟨-, rfl⟩⟩ | ⟨-, rfl⟩ <;> decide
    rcases hqr with rfl | ⟨hex, -⟩ | ⟨hpub, -⟩
    · exact .inr hpq
    · rw [hq.1] at hex
      cases hex
    · exact absurd hpub hq.2

theorem mem_leasedStates_iff :
    JobStore.leasedStates.contains p = true ↔ executing.contains p = true ∨ p = publishingRun := by
  cases p <;> decide

/-- Once off the worker's path, always off it. -/
theorem Drifts.of_off (h : Drifts cancels p q) (hp : JobStore.leasedStates.contains p = false) :
    q = p := by
  rcases h with h | ⟨hex, -⟩ | ⟨rfl, -⟩
  · exact h
  · rw [mem_leasedStates_iff.2 (.inl hex)] at hp
    cases hp
  · exact absurd hp (by decide)

theorem Through.off (h : Through cancels p) : JobStore.leasedStates.contains p = false := by
  rcases h with h | ⟨-, rfl⟩
  · revert h
    cases p <;> decide
  · decide

/-- What the others leave of a job that was on the worker's path is settled or still on it. -/
theorem Drifts.through (h : Drifts cancels p q) (hp : JobStore.leasedStates.contains p = true)
    (hq : JobStore.leasedStates.contains q = false) : Through cancels q := by
  rcases h with rfl | ⟨-, rfl | ⟨hc, rfl⟩⟩ | ⟨-, rfl⟩
  · rw [hp] at hq
    cases hq
  · exact .inl rfl
  · exact .inr ⟨hc, rfl⟩
  · exact .inl rfl

theorem Drifts.ne_completed (h : Drifts cancels p q) (hp : p ≠ completed) : q ≠ completed := by
  rcases h with rfl | ⟨-, rfl | ⟨-, rfl⟩⟩ | ⟨-, rfl⟩
  · exact hp
  all_goals decide

end States

/-! ## Rows -/

/-- A row of the worker after the others have moved. -/
structure DriftedRow (cancels : Prop) (r r' : AnalysisJob) : Prop where
  worker : r'.workerId = r.workerId
  plan : r'.planRevisionId = r.planRevisionId
  state : Drifts cancels r.state r'.state
  run : r.state = completed → r'.completedRunId = r.completedRunId

/-- The rows of worker `W` stay its rows, and it gets no others. -/
def LeavesMine (W : String) (cancels : Prop) (s s' : JobStore) : Prop := ∀ j,
  (∀ r, s.job j = some r → r.workerId = some W → ∃ r', s'.job j = some r' ∧ DriftedRow cancels r r') ∧
  ∀ r', s'.job j = some r' → r'.workerId = some W → ∃ r, s.job j = some r ∧ r.workerId = some W

theorem DriftedRow.refl {cancels : Prop} (r : AnalysisJob) : DriftedRow cancels r r :=
  ⟨rfl, rfl, .refl _, fun _ => rfl⟩

theorem DriftedRow.trans {cancels : Prop} {r r' r'' : AnalysisJob} (h : DriftedRow cancels r r')
    (h' : DriftedRow cancels r' r'') : DriftedRow cancels r r'' := by
  refine ⟨h'.worker.trans h.worker, h'.plan.trans h.plan, h.state.trans h'.state, fun hc => ?_⟩
  have hoff : JobStore.leasedStates.contains r.state = false := by
    rw [hc]
    decide
  rw [h'.run ((h.state.of_off hoff).trans hc), h.run hc]

namespace LeavesMine

variable {W : String} {cancels : Prop} {s s' s'' : JobStore}

theorem refl (s : JobStore) : LeavesMine W cancels s s :=
  fun _ => ⟨fun r hr _ => ⟨r, hr, .refl r⟩, fun r' hr' hw => ⟨r', hr', hw⟩⟩

theorem trans (h : LeavesMine W cancels s s') (h' : LeavesMine W cancels s' s'') :
    LeavesMine W cancels s s'' := by
  intro j
  constructor
  · intro r hr hw
    obtain ⟨r', hr', hf⟩ := (h j).1 r hr hw
    obtain ⟨r'', hr'', hf'⟩ := (h' j).1 r' hr' (hf.worker.trans hw)
    exact ⟨r'', hr'', hf.trans hf'⟩
  · intro r'' hr'' hw
    obtain ⟨r', hr', hw'⟩ := (h' j).2 r'' hr'' hw
    exact (h j).2 r' hr' hw'

/-- A transaction leaves the worker's rows alone if every move it makes on them is a drift and every row it
gives a worker goes to another one. -/
theorem of_steps {e : Effect} (hst : JobStore.Steps e s s') (hok : ∀ j, JobOk j (s.view j))
    (hmove : ∀ j r r', s.job j = some r → s'.job j = some r' → r.workerId = some W →
      e.dst = some r'.state → Moved r r' → Drifts cancels r.state r'.state)
    (hclaim : e.dst = some claimed → ∀ j r', s'.job j = some r' → r'.workerId = some W →
      ∃ r, s.job j = some r ∧ r.workerId = some W) : LeavesMine W cancels s s' := by
  intro j
  have hstep := hst.2 j
  have hrow := (hok j).row
  simp only [JobStore.view] at hstep hrow
  generalize hjob : s.job j = o at hstep hrow
  generalize hjob' : s'.job j = o' at hstep
  generalize s.eventsOf j = es at hstep
  generalize s'.eventsOf j = es' at hstep
  have hmove := hmove j
  have hclaim := fun h => hclaim h j
  rw [hjob, hjob'] at hmove
  rw [hjob, hjob'] at hclaim
  constructor
  · rintro r rfl hw
    cases hstep with
    | same => exact ⟨r, rfl, .refl r⟩
    | @move _ _ r' ev hdst hm hev hst =>
      have hq : r.state ≠ queued := fun hq => by
        rw [(hrow r rfl).unclaimed hq] at hw
        cases hw
      have hworker : r'.workerId = r.workerId := by
        rcases hm.lease with ⟨h, -, -⟩ | ⟨h, -⟩ | ⟨h, -⟩
        · exact h
        · exact absurd h hq
        · exact absurd h hq
      refine ⟨r', rfl, hworker, hm.plan.1, hmove r r' rfl rfl hw hdst hm, fun hc => ?_⟩
      have := legalTransition_active hm.legal
      rw [hc] at this
      cases this
    | @touch _ _ r' ht =>
      exact ⟨r', rfl, ht.worker, ht.plan.1, .inl ht.state, fun _ => ht.run⟩
    | note => exact ⟨r, rfl, .refl r⟩
  · rintro r' rfl hw
    cases hstep with
    | same => exact ⟨r', rfl, hw⟩
    | create hnew hc =>
      rw [hc.worker] at hw
      cases hw
    | @move _ r _ ev hdst hm hev hst =>
      rcases hm.lease with ⟨h, -, -⟩ | ⟨-, -, h⟩ | ⟨-, hclaimed, -⟩
      · exact ⟨r, rfl, h ▸ hw⟩
      · exact ⟨r, rfl, h ▸ hw⟩
      · exact hclaim (hclaimed ▸ hdst) r' rfl hw
    | @touch _ r _ ht => exact ⟨r, rfl, ht.worker ▸ hw⟩
    | note => exact ⟨r', rfl, hw⟩

end LeavesMine

/-! ## Calls -/

namespace JobStore

variable {s s' : JobStore} {jobId i : JobId} {now later : DateTime}

/-- An update of one job with its event leaves the other jobs alone. -/
theorem view_write {p : AnalysisJob → Bool} {f : AnalysisJob → AnalysisJob} {ev : JobEvent}
    (h : (s.update jobId p f).appendEventTx ev = .ok s') (hf : ∀ r, (f r).id = r.id)
    (hid : ev.jobId = jobId) (hi : i ≠ jobId) : s'.view i = s.view i := by
  obtain ⟨rfl, -⟩ := appendEventTx_ok h
  have hrow : (s.update jobId p f).job i = s.job i := by
    rw [job_update s hf]
    cases hjob : s.job i with
    | none => rfl
    | some r =>
      have : r.id ≠ jobId := by
        rw [job_id hjob]
        exact hi
      simp [this]
  have hne : ev.jobId ≠ i := by
    rw [hid]
    exact hi.symm
  rw [view_appendEvent, hrow, if_neg hne, List.append_nil]
  rfl

theorem job_write {p : AnalysisJob → Bool} {f : AnalysisJob → AnalysisJob} {ev : JobEvent} {r : AnalysisJob}
    (h : (s.update jobId p f).appendEventTx ev = .ok s') (hf : ∀ r, (f r).id = r.id)
    (hr : s.job jobId = some r) (hp : p r = true) : s'.job jobId = some (f r) := by
  obtain ⟨rfl, -⟩ := appendEventTx_ok h
  change (s.update jobId p f).job jobId = some (f r)
  rw [job_update s hf, hr]
  simp [job_id hr, hp]

theorem requestCancelTx_others (h : s.requestCancelTx jobId now = .ok s') (hi : i ≠ jobId) :
    s'.view i = s.view i := by
  unfold requestCancelTx at h
  obtain ⟨r, hg, h⟩ := bind_ok h
  obtain ⟨-, h⟩ := guard_ok h
  obtain ⟨hn, h⟩ := guard_ok h
  exact view_write h (fun r => rfl) rfl hi

/-- A claim changes the job it answers with and no other. -/
theorem claimNext_frame {workerId : String} {leaseSecs : Int} {out : Option JobId} (hwf : s.WF)
    (h : s.claimNext workerId leaseSecs now later = .ok (s', out)) :
    (∀ i, out ≠ some i → s'.view i = s.view i) ∧ ∀ i, out = some i → ∃ r r', s.job i = some r ∧
      s'.job i = some r' ∧ r'.workerId = some workerId ∧ r'.state = claimed := by
  unfold claimNext at h
  cases ho : s.oldestQueued with
  | none =>
    rw [ho] at h
    cases h
    exact ⟨fun _ _ => rfl, fun i hi => by cases hi⟩
  | some r =>
    rw [ho] at h
    obtain ⟨s₁, hev, h⟩ := bind_ok h
    cases h
    obtain ⟨hmem, hq⟩ := mem_oldestQueued ho
    have hr := job_of_mem hwf hmem
    refine ⟨fun i hi => view_write hev (fun r => rfl) rfl fun he => hi (congrArg some he.symm),
      fun i hi => ?_⟩
    cases hi
    exact ⟨r, _, hr, job_write hev (fun r => rfl) hr (by simp [hq]), rfl, rfl⟩

end JobStore

/-- It does not touch the rows of worker `W`, cancellations and the stale scan apart. -/
def Call.Spares (W : String) (cancels : Prop) (s : JobStore) : Call → Prop
  | .claimNext workerId _ => workerId ≠ W
  | .transition jobId src _ _ _ _ => src = queued ∨ ∀ r, s.job jobId = some r → r.workerId ≠ some W
  | .fail jobId _ _ _ | .complete jobId _ => ∀ r, s.job jobId = some r → r.workerId ≠ some W
  | .requestCancel jobId => cancels ∨ ∀ r, s.job jobId = some r → r.workerId ≠ some W
  | .queue _ _ _ | .renewLease _ _ _ | .markStaleLeases _ | .retry _ _ _ | .appendEvent _ _
  | .updateProgress _ _ _ _ _ | .setStagedRoot _ _ => True

section Calls
variable {W : String} {cancels : Prop} {s s' : JobStore} {c : Catalog} {call : Call}
  {now later : DateTime} {newId : JobId} {out : Answer}

theorem Moved.ne {r r' : AnalysisJob} (h : Moved r r') : r' ≠ r := by
  rintro rfl
  exact legalTransition_ne h.legal rfl

theorem exec_leavesMine (hwf : s.WF) (hok : ∀ j, JobOk j (s.view j)) (hspares : call.Spares W cancels s)
    (h : call.exec c s now later newId = .ok (s', out)) : LeavesMine W cancels s s' := by
  have hst := JobSystem.exec_step hwf h
  -- a row that is not written has not moved
  have hsame : ∀ {j r r'}, s'.view j = s.view j → s.job j = some r → s'.job j = some r' →
      Moved r r' → Drifts cancels r.state r'.state := by
    intro j r r' hview hr hr' hm
    have hrow : s'.job j = s.job j := congrArg JobView.row hview
    rw [hr, hr'] at hrow
    cases hrow
    exact absurd rfl hm.ne
  have hclaimed : ∀ {d : JobState}, d ≠ claimed → some d = some claimed → ∀ j r', s'.job j = some r' →
      r'.workerId = some W → ∃ r, s.job j = some r ∧ r.workerId = some W :=
    fun hne he => absurd (Option.some.inj he) hne
  cases call with
  | queue plan source hash => exact .of_steps hst hok (fun _ _ _ _ _ _ hd => by cases hd) (fun hd => by cases hd)
  | retry original source hash =>
    exact .of_steps hst hok (fun _ _ _ _ _ _ hd => by cases hd) (fun hd => by cases hd)
  | renewLease jobId worker secs =>
    exact .of_steps hst hok (fun _ _ _ _ _ _ hd => by cases hd) (fun hd => by cases hd)
  | appendEvent ev occurred =>
    exact .of_steps hst hok (fun _ _ _ _ _ _ hd => by cases hd) (fun hd => by cases hd)
  | updateProgress jobId stage current total unit =>
    exact .of_steps hst hok (fun _ _ _ _ _ _ hd => by cases hd) (fun hd => by cases hd)
  | setStagedRoot jobId root =>
    exact .of_steps hst hok (fun _ _ _ _ _ _ hd => by cases hd) (fun hd => by cases hd)
  | claimNext worker secs =>
    obtain ⟨⟨t, o⟩, ht, he⟩ := map_ok h
    cases he
    obtain ⟨hframe, hnew⟩ := JobStore.claimNext_frame hwf ht
    refine .of_steps hst hok (fun j r r' hr _ hw hd hm => ?_) (fun _ j r' hr' hw => ?_)
    · have hq : r.state = queued := by
        have hl := hm.legal
        rw [← Option.some.inj hd] at hl
        revert hl
        cases r.state <;> decide
      rw [((hok j).row r hr).unclaimed hq] at hw
      cases hw
    · by_cases ho : o = some j
      · obtain ⟨r, q, -, hq, hworker, -⟩ := hnew j ho
        rw [hr'] at hq
        cases hq
        rw [hw] at hworker
        exact absurd (Option.some.inj hworker).symm hspares
      · have hrow : s'.job j = s.job j := congrArg JobView.row (hframe j ho)
        exact ⟨r', hrow ▸ hr', hw⟩
  | transition jobId src dst hdst code msg =>
    obtain ⟨t, ht, he⟩ := map_ok h
    cases he
    obtain ⟨hd, hc⟩ := JobSystem.stage_target hdst
    obtain ⟨-, hrest, r₀, hr₀, hsrc, -⟩ := JobStore.transition_step hwf hd hc ht
    refine .of_steps hst hok (fun j r r' hr hr' hw _ hm => ?_) (hclaimed hc)
    by_cases hj : j = jobId
    · subst hj
      rw [hr₀] at hr
      cases hr
      rcases hspares with hq | hother
      · rw [((hok j).row r₀ hr₀).unclaimed (hsrc.trans hq)] at hw
        cases hw
      · exact absurd hw (hother r₀ hr₀)
    · exact hsame (hrest j hj) hr hr' hm
  | fail jobId src code summary =>
    obtain ⟨t, ht, he⟩ := map_ok h
    cases he
    obtain ⟨-, hrest, -⟩ := JobStore.fail_step hwf ht
    refine .of_steps hst hok (fun j r r' hr hr' hw _ hm => ?_) (hclaimed (by decide))
    by_cases hj : j = jobId
    · exact absurd hw (hspares r (hj ▸ hr))
    · exact hsame (hrest j hj) hr hr' hm
  | complete jobId runId =>
    obtain ⟨t, ht, he⟩ := map_ok h
    cases he
    obtain ⟨-, hrest, -⟩ := JobStore.complete_step hwf ht
    refine .of_steps hst hok (fun j r r' hr hr' hw _ hm => ?_) (hclaimed (by decide))
    by_cases hj : j = jobId
    · exact absurd hw (hspares r (hj ▸ hr))
    · exact hsame (hrest j hj) hr hr' hm
  | markStaleLeases at_ =>
    obtain ⟨t, ht, he⟩ := map_ok h
    cases he
    refine .of_steps hst hok (fun j r r' hr hr' hw hd hm => ?_) (hclaimed (by decide))
    obtain ⟨-, -, hfresh⟩ := JobStore.markStaleLeases_step j hwf ht
    cases hstale : JobStore.staleLease at_ r with
    | true =>
      have hl : JobStore.leasedStates.contains r.state = true := (Bool.and_eq_true _ _ ▸ hstale).1
      rw [← Option.some.inj hd]
      rcases mem_leasedStates_iff.1 hl with hex | hpub
      · exact .inr (.inl ⟨hex, .inl rfl⟩)
      · exact .inr (.inr ⟨hpub, rfl⟩)
    | false =>
      refine hsame (hfresh fun q hq => ?_) hr hr' hm
      rw [hr] at hq
      cases hq
      exact hstale
  | requestCancel jobId =>
    obtain ⟨t, ht, he⟩ := map_ok h
    cases he
    refine .of_steps hst hok (fun j r r' hr hr' hw hd hm => ?_) (hclaimed (by decide))
    by_cases hj : j = jobId
    · rcases hspares with hc | hother
      · have hl := hm.legal
        rw [← Option.some.inj hd] at hl ⊢
        refine .inr (.inl ⟨?_, .inr ⟨hc, rfl⟩⟩)
        revert hl
        cases r.state <;> decide
      · exact absurd hw (hother r (hj ▸ hr))
    · exact hsame (JobStore.requestCancelTx_others ht hj) hr hr' hm

end Calls

/-! ## The world -/

namespace WorkerWorld

/-- The tables are as the service leaves them, every id is one the worker accepts and the scope policy can
be read. -/
structure Sound (w : WorkerWorld) : Prop where
  wf : w.store.WF
  ok : ∀ j, JobOk j (w.store.view j)
  ids : ∀ j r, w.store.job j = some r → validJobId j = true
  runs : ∀ r ∈ w.runs, r.id < maxRowId
  scope : ∀ plan, (w.catalog.scopeExclusion plan).isOk = true

/-- A step of the others. The last three are those of the worker's own heartbeat thread. -/
inductive Others (W : String) (cancels : Prop) (w : WorkerWorld) : WorkerWorld → Prop where
  | clock (now later : DateTime) : Others W cancels w { w with now, later }
  | catalog (c : Catalog) (h : ∀ plan, (c.scopeExclusion plan).isOk = true) :
    Others W cancels w { w with catalog := c }
  | call {c : Call} {now later newId store out} (hspares : c.Spares W cancels w.store)
    (hid : validJobId newId = true)
    (h : c.exec w.catalog w.store now later newId = .ok (store, out)) :
    Others W cancels w { w with store }
  | importRun {planId startedAt runs runId} (jobId : JobId)
    (h : insertRun w.runs planId startedAt = .ok (runs, runId)) :
    Others W cancels w { w with runs, artifacts := insertArtifact w.artifacts ⟨runId, jobId⟩ }
  | renewed {j secs store} (hbeat : w.beating = true) (hj : w.watched = some j)
    (h : w.store.renewLease j W secs w.now w.later = .ok store) : Others W cancels w { w with store }
  | lost {j secs e} (hbeat : w.beating = true) (hj : w.watched = some j)
    (h : w.store.renewLease j W secs w.now w.later = .error e) :
    Others W cancels w { w with beating := false, cancel := true }
  | observed {j r} (hbeat : w.beating = true) (hj : w.watched = some j) (h : w.store.get j = .ok r)
    (hr : r.state = cancelRequested) : Others W cancels w { w with cancel := true }

/-- What the worker counts on. -/
structure Rely (W : String) (cancels : Prop) (w w' : WorkerWorld) : Prop where
  sound : w.Sound → w'.Sound
  mine : w.Sound → LeavesMine W cancels w.store w'.store
  watched : w'.watched = w.watched
  flag : w.Sound → w'.cancel = true → w.cancel = true ∨ ∀ j r, w.watched = some j →
    w'.store.job j = some r → r.workerId = some W → JobStore.leasedStates.contains r.state = false
  runs : ∀ r ∈ w.runs, r ∈ w'.runs
  artifacts : ∀ a ∈ w.artifacts, a ∈ w'.artifacts

variable {W : String} {cancels : Prop} {w w' w'' : WorkerWorld}

theorem Rely.refl (w : WorkerWorld) : Rely W cancels w w :=
  ⟨id, fun _ => .refl _, rfl, fun _ => .inl, fun _ => id, fun _ => id⟩

theorem Rely.trans (h : Rely W cancels w w') (h' : Rely W cancels w' w'') : Rely W cancels w w'' := by
  refine ⟨fun hs => h'.sound (h.sound hs), fun hs => (h.mine hs).trans (h'.mine (h.sound hs)),
    h'.watched.trans h.watched, fun hs hc => ?_, fun r hr => h'.runs r (h.runs r hr),
    fun a ha => h'.artifacts a (h.artifacts a ha)⟩
  rcases h'.flag (h.sound hs) hc with hc' | hoff
  · refine (h.flag hs hc').imp id fun hoff j r hj hr hw => ?_
    obtain ⟨r', hr', hw'⟩ := (h'.mine (h.sound hs) j).2 r hr hw
    obtain ⟨q, hq, hfollows⟩ := (h'.mine (h.sound hs) j).1 r' hr' hw'
    rw [hr] at hq
    cases hq
    rw [hfollows.state.of_off (hoff j r' hj hr' hw')]
    exact hoff j r' hj hr' hw'
  · exact .inr fun j r hj => hoff j r (h.watched.trans hj)

theorem mem_insertArtifact_of_mem {l : List ArtifactRow} {a b : ArtifactRow} (h : a ∈ l) :
    a ∈ insertArtifact l b := by
  unfold insertArtifact
  split
  · exact h
  · exact List.mem_append_left _ h

theorem mem_of_insertRun {runs runs' : List RunRow} {planId : Int} {startedAt : DateTime} {runId : Nat}
    {r : RunRow} (h : insertRun runs planId startedAt = .ok (runs', runId)) (hr : r ∈ runs) : r ∈ runs' := by
  unfold insertRun at h
  split at h
  · cases h
    exact hr
  · simp only at h
    split at h
    · cases h
      exact List.mem_append_left _ hr
    · cases h

/-- A transaction keeps the tables sound. -/
theorem Sound.write (h : w.Sound) {e : Effect} {store : JobStore} (hst : JobStore.Steps e w.store store)
    (hnew : ∀ j, e.new = some j → validJobId j = true) : ({ w with store } : WorkerWorld).Sound := by
  refine ⟨hst.1, fun j => (h.ok j).step (hst.2 j), fun j r hr => ?_, h.runs, h.scope⟩
  have hstep := hst.2 j
  have hids := h.ids j
  simp only [JobStore.view] at hstep
  generalize w.store.job j = o at hstep hids
  generalize w.store.eventsOf j = es at hstep
  change store.job j = some r at hr
  rw [hr] at hstep
  generalize store.eventsOf j = es' at hstep
  cases hstep with
  | same => exact hids r rfl
  | create he => exact hnew j he
  | move => exact hids _ rfl
  | touch => exact hids _ rfl
  | note => exact hids _ rfl

theorem effect_new {c : Call} {newId j : JobId} (h : (c.effect newId).new = some j) : j = newId := by
  cases c with
  | queue => exact (Option.some.inj h).symm
  | retry => exact (Option.some.inj h).symm
  | claimNext => cases h
  | renewLease => cases h
  | transition => cases h
  | fail => cases h
  | complete => cases h
  | markStaleLeases => cases h
  | requestCancel => cases h
  | appendEvent => cases h
  | updateProgress => cases h
  | setStagedRoot => cases h

/-- The heartbeat of a row of the worker's loses its lease only when the job is off. -/
theorem off_of_lost {j : JobId} {r : AnalysisJob} {secs : Int} {now later : DateTime} {e : String}
    {s : JobStore} (hr : s.job j = some r) (hw : r.workerId = some W)
    (h : s.renewLease j W secs now later = .error e) :
    JobStore.leasedStates.contains r.state = false := by
  by_contra hl
  rw [Bool.not_eq_false] at hl
  have hget : s.get j = .ok r := by simp only [JobStore.get, hr]
  have hactive : (!r.state.isActive || r.state == queued) = false := by
    revert hl
    cases r.state <;> decide
  have hrows : s.rows j (fun q => q.workerId == some W && JobStore.leasedStates.contains q.state) ≠ 0 := by
    rw [← Nat.pos_iff_ne_zero, JobStore.rows, List.countP_pos_iff]
    refine ⟨r, JobStore.job_mem hr, ?_⟩
    rw [JobStore.job_id hr, hw, hl]
    simp
  unfold JobStore.renewLease at h
  rw [hget] at h
  simp only [bind, Except.bind, hactive, Bool.false_eq_true, if_false, hw, ne_eq, not_true_eq_false,
    hrows] at h
  cases h

/-- The others do no more than the worker counts on. -/
theorem Others.rely (h : Others W cancels w w') : Rely W cancels w w' := by
  cases h with
  | clock now later =>
    exact ⟨fun h => ⟨h.wf, h.ok, h.ids, h.runs, h.scope⟩, fun _ => .refl _, rfl, fun _ => .inl,
      fun _ => id, fun _ => id⟩
  | catalog c hc =>
    exact ⟨fun h => ⟨h.wf, h.ok, h.ids, h.runs, hc⟩, fun _ => .refl _, rfl, fun _ => .inl,
      fun _ => id, fun _ => id⟩
  | call hspares hid hexec =>
    refine ⟨fun h => h.write (JobSystem.exec_step h.wf hexec) fun j hj => ?_,
      fun h => exec_leavesMine h.wf h.ok hspares hexec, rfl, fun _ => .inl, fun _ => id, fun _ => id⟩
    rw [effect_new hj]
    exact hid
  | importRun jobId hrun =>
    exact ⟨fun h => ⟨h.wf, h.ok, h.ids, (PublishSystem.insertRun_ok h.runs hrun).1, h.scope⟩,
      fun _ => .refl _, rfl, fun _ => .inl, fun _ => mem_of_insertRun hrun,
      fun _ => mem_insertArtifact_of_mem⟩
  | renewed hbeat hj hren =>
    refine ⟨fun h => h.write (JobStore.renewLease_step h.wf hren) fun j hj => (by cases hj), fun h => ?_, rfl,
      fun _ => .inl, fun _ => id, fun _ => id⟩
    exact .of_steps (JobStore.renewLease_step h.wf hren) h.ok (fun _ _ _ _ _ _ hd => by cases hd)
      (fun hd => by cases hd)
  | lost hbeat hj hren =>
    refine ⟨fun h => ⟨h.wf, h.ok, h.ids, h.runs, h.scope⟩, fun _ => .refl _, rfl, fun _ _ => .inr ?_,
      fun _ => id, fun _ => id⟩
    intro i r hi hr hw
    rw [hj] at hi
    cases hi
    exact off_of_lost hr hw hren
  | @observed j q hbeat hj hget hstate =>
    refine ⟨fun h => ⟨h.wf, h.ok, h.ids, h.runs, h.scope⟩, fun _ => .refl _, rfl, fun _ _ => .inr ?_,
      fun _ => id, fun _ => id⟩
    intro i r hi hr hw
    rw [hj] at hi
    cases hi
    have hrow : w.store.job j = some r := hr
    rw [JobStore.get_ok hget] at hrow
    cases hrow
    rw [hstate]
    decide

end WorkerWorld

end Inim
