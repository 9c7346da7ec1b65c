import Inim.Jobs.Service

/-!
# What one transaction can do to one job

`JobStore.view s j` is everything the tables hold about job `j`: its row and its events, in
insertion order. `JobStep` lists the ways a transaction can change it: not at all, create the
row together with its first event, move the state together with one event, write columns
beside the state, or log one more event. Every function of the service is shown to be a
`JobStep` for every job (`…_step`), which is all the run proofs use.
-/

namespace Inim

open JobState
open Inim.Lib

/-- The ids are a primary key. -/
def JobStore.WF (s : JobStore) : Prop := (s.jobs.map (·.id)).Nodup

structure JobView where
  row : Option AnalysisJob
  events : List JobEvent
deriving DecidableEq

def JobStore.view (s : JobStore) (j : JobId) : JobView := ⟨s.job j, s.eventsOf j⟩

def nextOf (es : List JobEvent) : Nat := (es.map (·.sequence)).foldr max 0 + 1

/-- A legal state change of one row, with the columns that go with the state. -/
structure Moved (r r' : AnalysisJob) : Prop where
  id : r'.id = r.id
  plan : r'.planRevisionId = r.planRevisionId ∧ r'.planHash = r.planHash
  legal : legalTransition r.state r'.state = true
  active : r'.state.isActive = true → r'.finishedAt = r.finishedAt
  finished : r'.state.isActive = false → r'.finishedAt.isSome = true
  done : r'.state = completed → r'.completedRunId.isSome = true
  undone : r'.state ≠ completed → r'.completedRunId = r.completedRunId
  lease : (r'.workerId = r.workerId ∧ r'.leaseExpiresAt = r.leaseExpiresAt ∧ r.state ≠ queued) ∨
    (r.state = queued ∧ r'.state.isActive = false ∧ r'.workerId = r.workerId) ∨
    (r.state = queued ∧ r'.state = claimed ∧ r'.workerId.isSome = true ∧
      r'.leaseExpiresAt.isSome = true)

/-- A write that leaves the state and what goes with it alone. -/
structure Touched (r r' : AnalysisJob) : Prop where
  id : r'.id = r.id
  plan : r'.planRevisionId = r.planRevisionId ∧ r'.planHash = r.planHash
  state : r'.state = r.state
  finished : r'.finishedAt = r.finishedAt
  run : r'.completedRunId = r.completedRunId
  worker : r'.workerId = r.workerId
  lease : r.leaseExpiresAt.isSome = true → r'.leaseExpiresAt.isSome = true

/-- A row as it is inserted. -/
structure Created (r : AnalysisJob) : Prop where
  state : r.state = queued
  finished : r.finishedAt = none
  run : r.completedRunId = none
  worker : r.workerId = none

/-- What a transaction may do: the id it may create, the state it may move jobs to. -/
structure Effect where
  new : Option JobId
  dst : Option JobState

inductive JobStep (e : Effect) (j : JobId) : JobView → JobView → Prop where
  | same (v) : JobStep e j v v
  | create {es r ev} (hnew : e.new = some j) (hr : Created r) (hid : r.id = j) (hev : ev.sequence = 1)
      (hst : ev.state = queued) : JobStep e j ⟨none, es⟩ ⟨some r, es ++ [ev]⟩
  | move {es r r' ev} (hdst : e.dst = some r'.state) (hm : Moved r r') (hev : ev.sequence = nextOf es)
      (hst : ev.state = r'.state) : JobStep e j ⟨some r, es⟩ ⟨some r', es ++ [ev]⟩
  | touch {es r r'} (ht : Touched r r') : JobStep e j ⟨some r, es⟩ ⟨some r', es⟩
  | note {es r ev} (hev : ev.sequence = nextOf es) : JobStep e j ⟨some r, es⟩ ⟨some r, es ++ [ev]⟩

namespace JobStore

variable {s s' : JobStore} {jobId j : JobId} {p : AnalysisJob → Bool}
  {f : AnalysisJob → AnalysisJob} {ev : JobEvent} {r : AnalysisJob}

/-! ## Reading back what the primitives write -/

theorem get_ok (h : s.get jobId = .ok r) : s.job jobId = some r := by
  unfold get at h
  split at h
  · rename_i r' hr'
    cases h
    exact hr'
  · cases h

theorem job_id (h : s.job jobId = some r) : r.id = jobId := by
  have := List.find?_some h
  simpa using this

theorem job_mem (h : s.job jobId = some r) : r ∈ s.jobs := List.mem_of_find?_eq_some h

theorem job_of_mem (hwf : s.WF) (hr : r ∈ s.jobs) : s.job r.id = some r := by
  obtain ⟨jobs, events⟩ := s
  simp only [WF, job] at hwf hr ⊢
  induction jobs with
  | nil => cases hr
  | cons a jobs ih =>
    rw [List.map_cons, List.nodup_cons] at hwf
    rcases List.mem_cons.1 hr with rfl | hr
    · simp
    · have hne : a.id ≠ r.id := fun he => hwf.1 (he ▸ List.mem_map_of_mem hr)
      rw [List.find?_cons_of_neg (by simpa using hne)]
      exact ih hwf.2 hr

theorem appendEventTx_ok (h : s.appendEventTx ev = .ok s') :
    s' = { s with events := s.events ++ [ev] } ∧ (s.job ev.jobId).isSome = true := by
  unfold appendEventTx at h
  split at h
  · cases h
  · split at h
    · cases h
    · rename_i hj
      split at h
      · cases h
      · cases h
        exact ⟨rfl, by simpa [Option.isSome_iff_ne_none] using hj⟩

theorem eventRefusal_of (h : ev.humanMessage.utf8ByteSize ≤ maxHumanMessageBytes)
    (hd : ∀ d, ev.structuredDetail = some d →
      d.utf8ByteSize ≤ maxStructuredDetailBytes ∧ absolutePath d = false) :
    eventRefusal ev = none := by
  rw [eventRefusal, if_neg (Nat.not_lt.2 h)]
  split
  · rfl
  · rename_i d hsome
    obtain ⟨hlen, habs⟩ := hd d hsome
    simp [Nat.not_lt.2 hlen, habs]

theorem appendEventTx_of (hmsg : eventRefusal ev = none) (hjob : (s.job ev.jobId).isSome = true)
    (hseq : (s.eventsOf ev.jobId).any (·.sequence == ev.sequence) = false) :
    s.appendEventTx ev = .ok { s with events := s.events ++ [ev] } := by
  have hnone : (s.job ev.jobId).isNone = false := by
    rw [← Option.not_isSome, hjob]
    rfl
  simp only [appendEventTx, hmsg, hnone, hseq, Bool.false_eq_true, if_false]

theorem insertJob_ok (h : s.insertJob r = .ok s') :
    s' = { s with jobs := s.jobs ++ [r] } ∧ s.job r.id = none := by
  unfold insertJob at h
  split at h
  · cases h
  · rename_i hj
    cases h
    exact ⟨rfl, by simpa using hj⟩

theorem view_appendEvent (s : JobStore) (ev : JobEvent) (j : JobId) :
    ({ s with events := s.events ++ [ev] } : JobStore).view j =
      ⟨s.job j, s.eventsOf j ++ if ev.jobId = j then [ev] else []⟩ := by
  simp only [view, job, eventsOf, List.filter_append, JobView.mk.injEq, true_and]
  by_cases h : ev.jobId = j <;> simp [h]

theorem job_insert (s : JobStore) (r : AnalysisJob) (j : JobId) (hn : s.job r.id = none) :
    ({ s with jobs := s.jobs ++ [r] } : JobStore).job j =
      if r.id = j then some r else s.job j := by
  simp only [job, List.find?_append] at hn ⊢
  by_cases h : r.id = j
  · subst h
    simp [hn]
  · simp [h]

theorem job_update (s : JobStore) (hf : ∀ r, (f r).id = r.id) (j : JobId) :
    (s.update jobId p f).job j =
      (s.job j).map fun r => if r.id == jobId && p r then f r else r := by
  simp only [job, update, List.find?_map]
  congr 1
  congr 1
  funext r
  simp only [Function.comp]
  split <;> simp [hf]

theorem wf_update (hwf : s.WF) (hf : ∀ r, (f r).id = r.id) : (s.update jobId p f).WF := by
  have hid : (AnalysisJob.id ∘ fun r => if r.id == jobId && p r then f r else r) =
      AnalysisJob.id := by
    funext r
    simp only [Function.comp]
    split <;> simp [hf]
  change ((s.jobs.map _).map AnalysisJob.id).Nodup
  rw [List.map_map, hid]
  exact hwf

theorem wf_insert (hwf : s.WF) (hn : s.job r.id = none) :
    ({ s with jobs := s.jobs ++ [r] } : JobStore).WF := by
  simp only [WF, List.map_append, List.map_cons, List.map_nil, List.nodup_append,
    List.mem_map, List.mem_singleton] at hwf ⊢
  refine ⟨hwf, by simp, ?_⟩
  rintro _ ⟨a, ha, rfl⟩ _ rfl he
  have := job_of_mem (s := s) hwf ha
  rw [he, hn] at this
  cases this

/-- A row that was counted is the row of that id. -/
theorem of_rows_ne_zero (hwf : s.WF) (hr : s.job jobId = some r)
    (h : s.rows jobId p ≠ 0) : p r = true := by
  obtain ⟨a, ha, hpa⟩ := List.countP_pos_iff.1 (Nat.pos_of_ne_zero h)
  rw [Bool.and_eq_true, beq_iff_eq] at hpa
  have := job_of_mem hwf ha
  rw [hpa.1, hr] at this
  cases this
  exact hpa.2

/-! ## One row and one event -/

/-- What a transaction has to establish for the run proofs. -/
def Steps (e : Effect) (s s' : JobStore) : Prop :=
  s'.WF ∧ ∀ j, JobStep e j (s.view j) (s'.view j)

theorem Steps.refl {e : Effect} (hwf : s.WF) : Steps e s s := ⟨hwf, fun _ => .same _⟩

/-- The shape of every state change: one row updated, its event appended. -/
theorem steps_move (hwf : s.WF) (h : (s.update jobId p f).appendEventTx ev = .ok s')
    (hf : ∀ r, (f r).id = r.id) (hr : s.job jobId = some r)
    (hp : p r = true) (hid : ev.jobId = jobId)
    (hm : Moved r (f r))
    (hseq : ev.sequence = (s.update jobId p f).nextSequence jobId) (hst : ev.state = (f r).state) :
    Steps ⟨none, some (f r).state⟩ s s' ∧ s'.view jobId = ⟨some (f r), s.eventsOf jobId ++ [ev]⟩ ∧
      ∀ j, j ≠ jobId → s'.view j = s.view j := by
  obtain ⟨rfl, -⟩ := appendEventTx_ok h
  have hrow : ∀ j, (s.update jobId p f).job j =
      if j = jobId then some (f r) else s.job j := by
    intro j
    rw [job_update s hf]
    by_cases hj : j = jobId
    · subst hj
      simp [hr, job_id hr, hp]
    · cases hjob : s.job j with
      | none => simp [hj]
      | some r' =>
        have : r'.id ≠ jobId := fun he => hj (by rw [← job_id hjob, he])
        simp [hj, this]
  have hev : ∀ j, (s.update jobId p f).eventsOf j = s.eventsOf j := fun j => rfl
  have hview : ∀ j, ({ (s.update jobId p f) with
      events := (s.update jobId p f).events ++ [ev] } : JobStore).view j =
      if j = jobId then ⟨some (f r), s.eventsOf jobId ++ [ev]⟩ else s.view j := by
    intro j
    rw [view_appendEvent, hrow, hev]
    by_cases hj : j = jobId
    · subst hj
      simp [hid]
    · have : ev.jobId ≠ j := fun he => hj (by rw [← he, hid])
      simp [hj, this, view]
  refine ⟨⟨wf_update hwf hf, fun j => ?_⟩, by rw [hview]; simp, fun j hj => by rw [hview]; simp [hj]⟩
  rw [hview]
  by_cases hj : j = jobId
  · subst hj
    rw [if_pos rfl, view, hr]
    exact .move rfl hm hseq hst
  · rw [if_neg hj]
    exact .same _

/-- The shape of an insertion: a new row with the first event. -/
theorem steps_create {s₁ : JobStore} (hwf : s.WF) (hi : s.insertJob r = .ok s₁) (hc : Created r)
    (hid : ev.jobId = r.id) (hseq : ev.sequence = 1) (hst : ev.state = queued)
    (h : s₁.appendEventTx ev = .ok s') :
    Steps ⟨some r.id, none⟩ s s' ∧ s.job r.id = none ∧ s'.view r.id = ⟨some r, s.eventsOf r.id ++ [ev]⟩ ∧
      ∀ j, j ≠ r.id → s'.view j = s.view j := by
  obtain ⟨rfl, hn⟩ := insertJob_ok hi
  obtain ⟨rfl, -⟩ := appendEventTx_ok h
  have hev : ∀ j, ({ s with jobs := s.jobs ++ [r] } : JobStore).eventsOf j = s.eventsOf j :=
    fun j => rfl
  have hview : ∀ j, ({ s with jobs := s.jobs ++ [r], events := s.events ++ [ev] } : JobStore).view j
      = if j = r.id then ⟨some r, s.eventsOf r.id ++ [ev]⟩ else s.view j := by
    intro j
    have := view_appendEvent { s with jobs := s.jobs ++ [r] } ev j
    rw [this, job_insert s r j hn, hev]
    by_cases hj : j = r.id
    · subst hj
      simp [hid]
    · have h1 : r.id ≠ j := Ne.symm hj
      have h2 : ev.jobId ≠ j := fun he => h1 (by rw [← he, hid])
      simp [hj, h1, h2, view]
  refine ⟨⟨wf_insert hwf hn, fun j => ?_⟩, hn, by rw [hview]; simp,
    fun j hj => by rw [hview]; simp [hj]⟩
  rw [hview]
  by_cases hj : j = r.id
  · subst hj
    rw [if_pos rfl, view, hn]
    exact .create rfl hc rfl hseq hst
  · rw [if_neg hj]
    exact .same _

/-- The shape of a write beside the state. -/
theorem steps_touch (hwf : s.WF) (hf : ∀ r, (f r).id = r.id) (ht : ∀ r, Touched r (f r)) :
    Steps ⟨none, none⟩ s (s.update jobId p f) := by
  refine ⟨wf_update hwf hf, fun j => ?_⟩
  have hev : (s.update jobId p f).eventsOf j = s.eventsOf j := rfl
  rw [view, view, job_update s hf, hev]
  cases s.job j with
  | none => exact .same _
  | some r =>
    rw [Option.map_some]
    split
    · exact .touch (ht r)
    · exact .same _

end JobStore

end Inim
