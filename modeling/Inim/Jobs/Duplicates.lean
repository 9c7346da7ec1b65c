import Inim.Jobs.Safety

/-!
# At most one active job per plan revision and plan hash

`queue` "enforces one active job per exact plan revision and plan hash" (`service.rs:498-500`)
by looking for an active duplicate in its transaction. `retry` inserts a `Queued` row as well
and does not look. `oneActive_iff`: along a run the rule holds exactly when every retry that
commits happens to find no active job of its plan and hash.
-/

namespace Inim

open JobState
open Inim.Lib

/-- At most one non-terminal job per `(plan_revision_id, plan_hash)`. -/
def JobStore.OneActive (st : JobStore) : Prop :=
  ∀ r ∈ st.jobs, ∀ r' ∈ st.jobs, r.state.isActive = true → r'.state.isActive = true →
    r.planRevisionId = r'.planRevisionId → r.planHash = r'.planHash → r.id = r'.id

instance (st : JobStore) : Decidable st.OneActive :=
  inferInstanceAs (Decidable (∀ r ∈ st.jobs, ∀ r' ∈ st.jobs, _))

/-- No non-terminal job of this plan revision and hash. -/
def JobStore.NoneActive (st : JobStore) (plan : Int) (hash : String) : Prop :=
  ∀ r ∈ st.jobs, r.state.isActive = true → ¬(r.planRevisionId = plan ∧ r.planHash = hash)

/-- When `a` commits a retry, no job of its plan and hash is active. -/
def JobSystem.RetryClear (s : JobSystem) (a : Action) : Prop :=
  ∀ original source hash st out,
    s.committed a = some (.retry original source hash, .ok (st, out)) →
      s.store.NoneActive original.planRevisionId hash

namespace JobStore

variable {st st' : JobStore} {n : JobId} {plan : Int} {hash : String}

theorem mem_duplicateStates (q : JobState) : duplicateStates.contains q = q.isActive := by
  cases q <;> decide

/-- `queue` goes on to insert exactly when nothing is active. -/
theorem activeDuplicate_eq_none : st.activeDuplicate plan hash = none ↔ st.NoneActive plan hash := by
  simp only [activeDuplicate, List.head?_eq_none_iff, mem_duplicateStates]
  rw [← List.length_eq_zero_iff, (sortBy_perm _ _).length_eq, List.length_eq_zero_iff,
    List.filter_eq_nil_iff]
  constructor
  · intro h r hr ha hp
    exact h r hr (by simp [hp.1, hp.2, ha])
  · intro h r hr hp
    simp only [Bool.and_eq_true, beq_iff_eq] at hp
    exact h r hr hp.2 hp.1

/-- Without an insertion, an active job was active before, for the same plan and hash. -/
theorem active_before {v v' : JobView} {j : JobId} {r' : AnalysisJob} {e : Effect}
    (he : e.new = none) (hs : JobStep e j v v') (hr' : v'.row = some r') (ha : r'.state.isActive = true) :
    ∃ r, v.row = some r ∧ r.state.isActive = true ∧ r.planRevisionId = r'.planRevisionId ∧
      r.planHash = r'.planHash ∧ r.id = r'.id := by
  cases hs with
  | same => exact ⟨r', hr', ha, rfl, rfl, rfl⟩
  | create hnew =>
    rw [he] at hnew
    cases hnew
  | move hdst hm =>
    cases hr'
    exact ⟨_, rfl, legalTransition_active hm.legal, hm.plan.1.symm, hm.plan.2.symm, hm.id.symm⟩
  | touch ht =>
    cases hr'
    exact ⟨_, rfl, ht.state ▸ ha, ht.plan.1.symm, ht.plan.2.symm, ht.id.symm⟩
  | note => exact ⟨r', hr', ha, rfl, rfl, rfl⟩

theorem oneActive_of_steps {e : Effect} (he : e.new = none) (hst : Steps e st st')
    (h : OneActive st) : OneActive st' := by
  intro r hr r' hr' ha ha' hp hh
  obtain ⟨q, hq, hqa, hqp, hqh, hqid⟩ := active_before he (hst.2 r.id) (job_of_mem hst.1 hr) ha
  obtain ⟨q', hq', hqa', hqp', hqh', hqid'⟩ :=
    active_before he (hst.2 r'.id) (job_of_mem hst.1 hr') ha'
  rw [← hqid, ← hqid']
  exact h q (job_mem hq) q' (job_mem hq') hqa hqa' (by rw [hqp, hqp', hp]) (by rw [hqh, hqh', hh])

/-- An insertion keeps the rule exactly when nothing of its plan and hash was active. -/
theorem oneActive_insert (hwf' : st'.WF) (hn : st.job n = none)
    (hrest : ∀ j, j ≠ n → st'.view j = st.view j) {r₀ : AnalysisJob} (hr₀ : st'.job n = some r₀)
    (ha₀ : r₀.state = queued) (hplan : r₀.planRevisionId = plan) (hhash : r₀.planHash = hash)
    (hwf : st.WF) (h : OneActive st) : OneActive st' ↔ st.NoneActive plan hash := by
  have hact₀ : r₀.state.isActive = true := by rw [ha₀]; rfl
  have hid₀ : r₀.id = n := job_id hr₀
  have hold : ∀ r ∈ st'.jobs, r.id ≠ n → r ∈ st.jobs := by
    intro r hr hne
    have hj := job_of_mem hwf' hr
    have hv : st'.job r.id = st.job r.id := congrArg JobView.row (hrest r.id hne)
    exact job_mem (hv ▸ hj)
  have hrow : ∀ r ∈ st'.jobs, r.id = n → r = r₀ := by
    intro r hr he
    have hj := job_of_mem hwf' hr
    rw [he, hr₀] at hj
    exact (Option.some.inj hj).symm
  constructor
  · intro h' q hq hqa hqp
    have hne : q.id ≠ n := by
      intro he
      have := job_of_mem hwf hq
      rw [he, hn] at this
      cases this
    have hv : st'.job q.id = st.job q.id := congrArg JobView.row (hrest q.id hne)
    have hq' : q ∈ st'.jobs := job_mem (hv.trans (job_of_mem hwf hq))
    exact hne ((h' q hq' r₀ (job_mem hr₀) hqa hact₀ (hqp.1.trans hplan.symm)
      (hqp.2.trans hhash.symm)).trans hid₀)
  · intro hno r hr r' hr' ha ha' hp hh
    by_cases he : r.id = n <;> by_cases he' : r'.id = n
    · rw [he, he']
    · rw [hrow r hr he] at hp hh
      exact absurd ⟨hp.symm.trans hplan, hh.symm.trans hhash⟩ (hno r' (hold r' hr' he') ha')
    · rw [hrow r' hr' he'] at hp hh
      exact absurd ⟨hp.trans hplan, hh.trans hhash⟩ (hno r (hold r hr he) ha)
    · exact h r (hold r hr he) r' (hold r' hr' he') ha ha' hp hh

end JobStore

namespace JobSystem

variable {s : JobSystem}

/-- One step keeps the rule exactly when a retry it commits is clear. -/
theorem oneActive_step (h : Inv s) (h1 : s.store.OneActive) (a : Action) :
    (s.step a).store.OneActive ↔ s.RetryClear a := by
  by_cases hcom : ∃ c st out, s.committed a = some (c, .ok (st, out))
  · obtain ⟨c, st, out, hc⟩ := hcom
    obtain ⟨hst, now, later, newId, he⟩ := committed_exec hc
    have hsteps := exec_step h.wf he
    rw [hst]
    cases c with
    | retry original source hash =>
      obtain ⟨t, ht, heq⟩ := map_ok he
      cases heq
      obtain ⟨-, hn, hrest, r, hr, hq, hplan, hhash⟩ := JobStore.retryTx_step h.wf ht
      rw [JobStore.oneActive_insert hsteps.1 hn hrest hr hq hplan hhash h.wf h1]
      constructor
      · intro hno original' source' hash' st' out' hc'
        rw [hc] at hc'
        cases hc'
        exact hno
      · intro hclear
        exact hclear original source hash _ _ hc
    | queue plan source hash =>
      have hclear : s.RetryClear a := fun _ _ _ _ _ hc' => by rw [hc] at hc'; cases hc'
      refine iff_of_true ?_ hclear
      obtain ⟨⟨t, o⟩, ht, heq⟩ := map_ok he
      cases heq
      rcases JobStore.queue_step h.wf ht with ⟨rfl, -⟩ | ⟨hnone, -, -, hn, hrest, r, hr, hq, hp, hh⟩
      · exact h1
      · rw [JobStore.oneActive_insert hsteps.1 hn hrest hr hq hp hh h.wf h1]
        exact JobStore.activeDuplicate_eq_none.1 hnone
    | claimNext | renewLease | transition | fail | complete | markStaleLeases | requestCancel
    | appendEvent | updateProgress | setStagedRoot =>
      have hclear : s.RetryClear a := fun _ _ _ _ _ hc' => by rw [hc] at hc'; cases hc'
      exact iff_of_true (JobStore.oneActive_of_steps rfl hsteps h1) hclear
  · have hsame : (s.step a).store = s.store := by
      rcases step_store s a with hs | ⟨c, st, out, hc, -⟩
      · exact hs
      · exact absurd ⟨c, st, out, hc⟩ hcom
    rw [hsame]
    exact iff_of_true h1 fun _ _ _ st out hc => absurd ⟨_, st, out, hc⟩ hcom

/-- **Exactly when the rule holds along a run**: it holds in every state passed iff every retry
committed on the way found no active job of its plan revision and hash. -/
theorem oneActive_iff (c : Catalog) (as : List Action) :
    (∀ pre, pre <+: as → (run step (start c) pre).store.OneActive) ↔
      ∀ pre a, pre ++ [a] <+: as → (run step (start c) pre).RetryClear a := by
  constructor
  · intro h pre a hpre
    have h1 := h pre ((List.prefix_append pre [a]).trans hpre)
    have h2 := h (pre ++ [a]) hpre
    rw [run_concat] at h2
    exact (oneActive_step (inv_run c pre) h1 a).1 h2
  · intro h pre
    induction pre using List.reverseRecOn with
    | nil => exact fun _ r hr => by cases hr
    | append_singleton pre a ih =>
      intro hpre
      have h1 := ih ((List.prefix_append pre [a]).trans hpre)
      rw [run_concat]
      exact (oneActive_step (inv_run c pre) h1 a).2 (h pre a hpre)

/-! ## A retry beside a job queued in the meantime -/

/-- One plan, ready to be queued. -/
def readyCatalog : Catalog where
  plan id := if id = 1 then some ⟨"Ready", analysisPlanSchemaVersion, "sha", 1⟩ else none
  manifest id := if id = 1 then some (1, 1) else none
  eventExists id := id = 1
  snapshotExists id := id = 1
  scopeExclusion _ := .ok none

/-- The service call of one request, read and committed with nobody in between. -/
def call (r : Request) (now : DateTime) (newId : JobId) : List Action :=
  [.read r, .commit 0 now now newId]

/-- Job `a` is queued, claimed and fails; the plan is queued again as `b`; then `a` is retried. -/
def retryAfterQueue : List Action :=
  call (.queue 1 .cli "h") 0 "a" ++ call (.claimNext "w" 90) 1 "" ++
    call (.failJob "a" "internal_error" "x") 2 "" ++ call (.queue 1 .cli "h") 3 "b" ++
    call (.retry "a" .cli "h") 4 "c"

/-- **Bug.** `b` and the retry `c` are both active for one plan revision and hash. -/
theorem retry_duplicates_active :
    ¬(run step (start readyCatalog) retryAfterQueue).store.OneActive := by
  decide

end JobSystem

end Inim
