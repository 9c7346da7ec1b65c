import Inim.Jobs.System
import Mathlib.Logic.Relation

/-!
# Safety of the job state machine over every interleaving

`JobOk` is the invariant of what the tables hold about one job. `JobOk.step` shows that a
`JobStep` keeps it, `inv_run` that every run does. `Leads` is what later states of a job can
be; with `legalTransition` it gives that terminal states are final, that a job is claimed once,
and that an accepted cancellation rules completion out.
-/

namespace Inim

open JobState
open Inim.Lib

/-! ## The invariant of one job -/

structure RowOk (j : JobId) (r : AnalysisJob) : Prop where
  id : r.id = j
  finished : r.finishedAt.isSome = true ↔ r.state.isActive = false
  run : r.completedRunId.isSome = true ↔ r.state = completed
  unclaimed : r.state = queued → r.workerId = none
  worker : r.state.isActive = true → r.state ≠ queued → r.workerId.isSome = true
  lease : r.state.isActive = true → r.workerId.isSome = true → r.leaseExpiresAt.isSome = true

structure JobOk (j : JobId) (v : JobView) : Prop where
  numbered : v.events.map (·.sequence) = List.range' 1 v.events.length
  absent : v.row = none → v.events = []
  row : ∀ r, v.row = some r → RowOk j r

variable {j : JobId} {v v' : JobView} {r r' : AnalysisJob}

theorem foldr_max_range' (n : Nat) : (List.range' 1 n).foldr max 0 = n := by
  have h : ∀ k n, 0 < n → (List.range' k n).foldr max 0 = k + n - 1 := by
    intro k n
    induction n generalizing k with
    | zero => simp
    | succ n ih =>
      intro _
      rw [List.range'_succ, List.foldr_cons]
      rcases n.eq_zero_or_pos with rfl | hn
      · simp
      · rw [ih (k + 1) hn]
        omega
  rcases n.eq_zero_or_pos with rfl | hn
  · rfl
  · rw [h 1 n hn]
    omega

theorem nextOf_numbered {es : List JobEvent}
    (h : es.map (·.sequence) = List.range' 1 es.length) : nextOf es = es.length + 1 := by
  rw [nextOf, h, foldr_max_range']

theorem numbered_concat {es : List JobEvent} {ev : JobEvent}
    (h : es.map (·.sequence) = List.range' 1 es.length) (hev : ev.sequence = nextOf es) :
    (es ++ [ev]).map (·.sequence) = List.range' 1 (es ++ [ev]).length := by
  rw [nextOf_numbered h] at hev
  rw [List.map_append, h, List.length_append, List.length_singleton, List.range'_1_concat]
  simp [hev, Nat.add_comm]

theorem RowOk.move (h : RowOk j r) (hm : Moved r r') : RowOk j r' := by
  have hact := legalTransition_active hm.legal
  have hunfinished : r.finishedAt.isSome = false := by
    rw [Bool.eq_false_iff]
    intro hf
    rw [h.finished.1 hf] at hact
    cases hact
  have hnotDone : r.completedRunId.isSome = false := by
    rw [Bool.eq_false_iff]
    intro hf
    rw [h.run.1 hf] at hact
    cases hact
  refine ⟨hm.id.trans h.id, ⟨fun hf => ?_, hm.finished⟩, ⟨fun hf => ?_, hm.done⟩, fun hq => ?_,
    fun ha hq => ?_, fun ha hw => ?_⟩
  · rw [Bool.eq_false_iff]
    intro ha
    rw [hm.active ha, hunfinished] at hf
    cases hf
  · by_contra hd
    rw [hm.undone hd, hnotDone] at hf
    cases hf
  · have hl := hm.legal
    rw [hq, not_legalTransition_queued] at hl
    cases hl
  · rcases hm.lease with ⟨hw, -, hnq⟩ | ⟨-, hf, -⟩ | ⟨-, -, hw, -⟩
    · rw [hw]
      exact h.worker hact hnq
    · rw [ha] at hf
      cases hf
    · exact hw
  · rcases hm.lease with ⟨hw', hl, hnq⟩ | ⟨-, hf, -⟩ | ⟨-, -, -, hl⟩
    · rw [hl]
      exact h.lease hact (hw' ▸ hw)
    · rw [ha] at hf
      cases hf
    · exact hl

theorem RowOk.touch (h : RowOk j r) (ht : Touched r r') : RowOk j r' := by
  refine ⟨ht.id.trans h.id, ?_, ?_, fun hq => ?_, fun ha hq => ?_, fun ha hw => ht.lease ?_⟩
  · rw [ht.finished, ht.state]
    exact h.finished
  · rw [ht.run, ht.state]
    exact h.run
  · rw [ht.worker]
    exact h.unclaimed (ht.state ▸ hq)
  · rw [ht.worker]
    exact h.worker (ht.state ▸ ha) (ht.state ▸ hq)
  · exact h.lease (ht.state ▸ ha) (ht.worker ▸ hw)

theorem RowOk.create (hc : Created r) (hid : r.id = j) : RowOk j r :=
  ⟨hid, by simp [hc.finished, hc.state, isActive], by simp [hc.run, hc.state], fun _ => hc.worker,
    fun _ hq => absurd hc.state hq, fun _ hw => by simp [hc.worker] at hw⟩

theorem JobOk.step (h : JobOk j v) {e : Effect} (hs : JobStep e j v v') : JobOk j v' := by
  cases hs with
  | same => exact h
  | create hnew hc hid hev hst =>
    have hes := h.absent rfl
    simp only at hes
    subst hes
    refine ⟨by simp [hev], by simp, fun r hr => ?_⟩
    cases hr
    exact .create hc hid
  | move hdst hm hev hst =>
    refine ⟨numbered_concat h.numbered hev, by simp, fun r hr => ?_⟩
    cases hr
    exact (h.row _ rfl).move hm
  | touch ht =>
    refine ⟨h.numbered, by simp, fun r hr => ?_⟩
    cases hr
    exact (h.row _ rfl).touch ht
  | note hev => exact ⟨numbered_concat h.numbered hev, by simp, h.row⟩

/-! ## The states a job can come to -/

/-- `q` is `p` or reached from it by legal transitions. -/
def Leads : JobState → JobState → Prop :=
  Relation.ReflTransGen fun p q => legalTransition p q = true

theorem Leads.of_terminal {p q : JobState} (h : Leads p q) (hp : p.isActive = false) : q = p := by
  induction h with
  | refl => rfl
  | tail _ hl ih =>
    have := legalTransition_active hl
    rw [ih, hp] at this
    cases this

theorem Leads.of_not_queued {p q : JobState} (h : Leads p q) (hp : p ≠ queued) : q ≠ queued := by
  induction h with
  | refl => exact hp
  | tail _ hl _ =>
    rintro rfl
    rw [not_legalTransition_queued] at hl
    cases hl

/-- The states after a cancellation was asked for. -/
def Cancelling (q : JobState) : Prop := q = cancelRequested ∨ q = cancelled ∨ q = failed

theorem Leads.of_cancelling {p q : JobState} (h : Leads p q) (hp : Cancelling p) :
    Cancelling q := by
  induction h with
  | refl => exact hp
  | tail _ hl ih =>
    rcases ih with rfl | rfl | rfl
    · exact Or.inr (legalTransition_cancelRequested hl)
    · have := legalTransition_active hl
      cases this
    · have := legalTransition_active hl
      cases this

/-- Rows are never deleted and move along `Leads`. -/
theorem JobStep.leads {e : Effect} (hs : JobStep e j v v') (hr : v.row = some r) :
    ∃ r', v'.row = some r' ∧ Leads r.state r'.state := by
  cases hs with
  | same => exact ⟨r, hr, .refl⟩
  | create => cases hr
  | move hdst hm =>
    cases hr
    exact ⟨_, rfl, .single hm.legal⟩
  | touch ht =>
    cases hr
    exact ⟨_, rfl, ht.state ▸ .refl⟩
  | note => exact ⟨r, hr, .refl⟩

/-! ## Runs -/

namespace JobSystem

variable {s : JobSystem} {a b : Action}

structure Inv (s : JobSystem) : Prop where
  wf : s.store.WF
  ok : ∀ j, JobOk j (s.store.view j)

theorem inv_start (c : Catalog) : Inv (start c) :=
  ⟨List.nodup_nil, fun j => ⟨rfl, fun _ => rfl, fun r hr => by cases hr⟩⟩

theorem inv_step (h : Inv s) (a : Action) : Inv (s.step a) := by
  obtain ⟨e, hwf, hv⟩ := step_steps h.wf a
  exact ⟨hwf, fun j => (h.ok j).step (hv j)⟩

theorem inv_run (c : Catalog) (as : List Action) : Inv (run step (start c) as) :=
  run_invariant (inv_start c) (fun _ a h => inv_step h a) as

/-- Whatever happens next, a job stays in the table and its state only moves along `Leads`. -/
theorem run_leads (h : Inv s) (as : List Action) (hr : s.store.job j = some r) :
    ∃ r', (run step s as).store.job j = some r' ∧ Leads r.state r'.state := by
  induction as generalizing s r with
  | nil => exact ⟨r, hr, .refl⟩
  | cons a as ih =>
    obtain ⟨e, -, hv⟩ := step_steps h.wf a
    obtain ⟨r₁, hr₁, h₁⟩ := (hv j).leads hr
    obtain ⟨r₂, hr₂, h₂⟩ := ih (inv_step h a) hr₁
    exact ⟨r₂, hr₂, h₁.trans h₂⟩

/-- The job that `a` claims and the worker it goes to. -/
def claims (s : JobSystem) (a : Action) : Option (JobId × String) :=
  match s.committed a with
  | some (.claimNext worker _, .ok (_, .claimed (some j))) => some (j, worker)
  | _ => none

/-- `a` commits a cancellation of `j`: at once, or by request. -/
def acceptsCancel (s : JobSystem) (a : Action) (j : JobId) : Prop :=
  ∃ st out, s.committed a = some (.requestCancel j, .ok (st, out)) ∨
    ∃ src hd code msg, s.committed a = some (.transition j src cancelled hd code msg, .ok (st, out))

theorem claims_spec (h : Inv s) {w : String} (hc : s.claims a = some (j, w)) :
    (∃ r, s.store.job j = some r ∧ r.state = queued) ∧
      ∃ r, (s.step a).store.job j = some r ∧ r.state = claimed := by
  unfold claims at hc
  split at hc
  · rename_i worker secs st j' hcom
    cases hc
    obtain ⟨hst, now, later, newId, he⟩ := committed_exec hcom
    obtain ⟨⟨t, o⟩, ht, heq⟩ := map_ok he
    cases heq
    obtain ⟨-, hcl⟩ := JobStore.claimNext_step h.wf ht
    obtain ⟨r, hr, hq, r', ev, hr', hv⟩ := hcl j rfl
    rw [hst]
    exact ⟨⟨r, hr, hq⟩, r', congrArg JobView.row hv, hr'⟩
  · cases hc

theorem acceptsCancel_spec (h : Inv s) (hc : s.acceptsCancel a j) :
    ∃ r, (s.step a).store.job j = some r ∧ Cancelling r.state := by
  obtain ⟨st, out, hc | ⟨src, hd, code, msg, hc⟩⟩ := hc
  · obtain ⟨hst, now, later, newId, he⟩ := committed_exec hc
    obtain ⟨t, ht, heq⟩ := map_ok he
    cases heq
    obtain ⟨-, r', ev, hr', hv⟩ := JobStore.requestCancelTx_step h.wf ht
    rw [hst]
    exact ⟨r', congrArg JobView.row hv, Or.inl hr'⟩
  · obtain ⟨hst, now, later, newId, he⟩ := committed_exec hc
    obtain ⟨t, ht, heq⟩ := map_ok he
    cases heq
    obtain ⟨-, -, -, -, -, r', ev, hr', hv⟩ :=
      JobStore.transition_step h.wf (by decide) (by decide) ht
    rw [hst]
    exact ⟨r', congrArg JobView.row hv, Or.inr (Or.inl hr')⟩

/-- A state change is legal and comes with exactly one event, which names the new state. -/
theorem step_change (h : Inv s) (a : Action) (hr : s.store.job j = some r)
    (hr' : (s.step a).store.job j = some r') (hne : r'.state ≠ r.state) :
    legalTransition r.state r'.state = true ∧ ∃ ev, ev.state = r'.state ∧
      (s.step a).store.eventsOf j = s.store.eventsOf j ++ [ev] := by
  obtain ⟨e, -, hv⟩ := step_steps h.wf a
  have hs := hv j
  simp only [JobStore.view, hr, hr'] at hs
  generalize s.store.eventsOf j = es at hs
  generalize (s.step a).store.eventsOf j = es' at hs
  cases hs with
  | same => exact absurd rfl hne
  | move hdst hm hev hst => exact ⟨hm.legal, _, hst, rfl⟩
  | touch ht => exact absurd ht.state hne
  | note => exact absurd rfl hne

/-- A new job is `Queued` and its log is the one event that says so. -/
theorem step_new (h : Inv s) (a : Action) (hr : s.store.job j = none)
    (hr' : (s.step a).store.job j = some r') :
    r'.state = queued ∧ ∃ ev, ev.state = queued ∧ (s.step a).store.eventsOf j = [ev] := by
  obtain ⟨e, -, hv⟩ := step_steps h.wf a
  have hs := hv j
  have hes : s.store.eventsOf j = [] := (h.ok j).absent hr
  simp only [JobStore.view, hr, hr', hes] at hs
  generalize (s.step a).store.eventsOf j = es' at hs
  cases hs with
  | create hnew hc hid hev hst => exact ⟨hc.state, _, hst, rfl⟩

/-- What is promised of a state `s`, of every step from it and of every run that follows. -/
structure Safe (s : JobSystem) : Prop where
  /-- `finished_at` is set exactly in terminal states, `completed_run_id` exactly in `Completed` -/
  columns : ∀ r ∈ s.store.jobs,
    (r.finishedAt.isSome = true ↔ r.state.isActive = false) ∧
      (r.completedRunId.isSome = true ↔ r.state = completed)
  /-- the sequence numbers of a job are `1, …, n` in the order the events were written -/
  numbered : ∀ j, (s.store.eventsOf j).map (·.sequence) =
    List.range' 1 (s.store.eventsOf j).length
  /-- a state change is legal and appends exactly one event, of the new state -/
  change : ∀ a j r r', s.store.job j = some r → (s.step a).store.job j = some r' →
    r'.state ≠ r.state → legalTransition r.state r'.state = true ∧
      (r'.state = completed → r.state = publishingRun) ∧
      ∃ ev, ev.state = r'.state ∧ (s.step a).store.eventsOf j = s.store.eventsOf j ++ [ev]
  /-- a job starts in `Queued`, with one event -/
  new : ∀ a j r', s.store.job j = none → (s.step a).store.job j = some r' →
    r'.state = queued ∧ ∃ ev, ev.state = queued ∧ (s.step a).store.eventsOf j = [ev]
  /-- a terminal state is never left -/
  terminal : ∀ j r, s.store.job j = some r → r.state.isActive = false →
    ∀ more, ∃ r', (run step s more).store.job j = some r' ∧ r'.state = r.state
  /-- a job that was claimed is never claimed again, by any worker -/
  claimedOnce : ∀ a j w, s.claims a = some (j, w) →
    ∀ more b w', (run step (s.step a) more).claims b ≠ some (j, w')
  /-- an accepted cancellation rules completion out for good -/
  cancelled : ∀ a j, s.acceptsCancel a j →
    ∀ more, ∃ r, (run step (s.step a) more).store.job j = some r ∧ r.state ≠ completed

/-- **Safety.** Every state any interleaving of service calls reaches is `Safe`. -/
theorem reachable_safe (c : Catalog) (as : List Action) : Safe (run step (start c) as) := by
  have h := inv_run c as
  generalize run step (start c) as = s at h
  constructor
  case columns =>
    intro r hr
    have hok := (h.ok r.id).row r (JobStore.job_of_mem h.wf hr)
    exact ⟨hok.finished, hok.run⟩
  case numbered => exact fun j => (h.ok j).numbered
  case change =>
    intro a j r r' hr hr' hne
    obtain ⟨hl, hev⟩ := step_change h a hr hr' hne
    refine ⟨hl, fun hd => ?_, hev⟩
    rw [hd] at hl
    exact legalTransition_completed hl
  case new => exact fun a j r' => step_new h a
  case terminal =>
    intro j r hr ht more
    obtain ⟨r', hr', hl⟩ := run_leads h more hr
    exact ⟨r', hr', hl.of_terminal ht⟩
  case claimedOnce =>
    intro a j w hc more b w' hc'
    -- after the claim the job is out of `Queued` for good, and only queued jobs are claimed
    obtain ⟨-, r, hr, hst⟩ := claims_spec h hc
    obtain ⟨r', hr', hl⟩ := run_leads (inv_step h a) more hr
    have hinv : Inv (run step (s.step a) more) :=
      run_invariant (inv_step h a) (fun _ a h => inv_step h a) more
    obtain ⟨⟨q, hq, hqs⟩, -⟩ := claims_spec hinv hc'
    rw [hr'] at hq
    cases hq
    exact hl.of_not_queued (by rw [hst]; decide) hqs
  case cancelled =>
    intro a j hc more
    obtain ⟨r, hr, hcan⟩ := acceptsCancel_spec h hc
    obtain ⟨r', hr', hl⟩ := run_leads (inv_step h a) more hr
    refine ⟨r', hr', ?_⟩
    rcases hl.of_cancelling hcan with he | he | he <;> rw [he] <;> decide

end JobSystem

end Inim
