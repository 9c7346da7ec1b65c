import Inim.Jobs.Publish

/-!
# Publication and completion agree when nothing comes between

`PhaseOk` says, for each point of the worker's sequence, what the job row and the published
runs are. Every undisturbed step keeps it (`inv_step`), so after every undisturbed run the two
facts agree for every job except one whose worker stands between its import and its completion
at that very moment (`publication_agrees_iff`).
-/

namespace Inim

open JobState
open Inim.Lib

/-! ## What calls from outside cannot do -/

/-- The calls that requests from outside become. -/
def Call.outside : Call → Bool
  | .complete _ _ | .fail _ _ _ _ => false
  | .transition _ _ dst _ _ _ => dst != publishingRun
  | .queue _ _ _ | .claimNext _ _ | .renewLease _ _ _ | .markStaleLeases _ | .requestCancel _
  | .retry _ _ _ | .appendEvent _ _ | .updateProgress _ _ _ _ _ | .setStagedRoot _ _ => true

variable {j : JobId} {v v' : JobView} {r : AnalysisJob} {e : Effect}

theorem read_outside {c : Catalog} {st : JobStore} {q : Request} {call : Call}
    (hq : q.outside = true) (h : q.read c st = .ok call) : call.outside = true := by
  cases q with
  | queue plan source hash =>
    obtain ⟨-, -, h⟩ := bind_ok h
    cases h
    rfl
  | claimNext | renewLease | markStaleLeases | appendEvent | updateProgress | setStagedRoot
  | observeCancel =>
    cases h
    rfl
  | stage jobId src dst hdst code msg =>
    cases h
    exact hq
  | cancelScopeExcluded jobId =>
    obtain ⟨job, -, h⟩ := bind_ok h
    obtain ⟨-, h⟩ := guard_ok h
    cases h
    rfl
  | requestCancel jobId =>
    obtain ⟨job, -, h⟩ := bind_ok h
    obtain ⟨-, h⟩ := guard_ok h
    simp only at h
    split at h <;> cases h <;> rfl
  | retry jobId source hash =>
    obtain ⟨original, -, h⟩ := bind_ok h
    obtain ⟨-, -, h⟩ := bind_ok h
    obtain ⟨-, h⟩ := guard_ok h
    simp only at h
    split at h
    · obtain ⟨-, h⟩ := guard_ok h
      cases h
      rfl
    · cases h
  | complete | enterPublishing | fail | failJob => cases hq

/-- A call from outside completes nothing, and ends no publishing job but by the stale scan. -/
theorem outside_effect {call : Call} (newId : JobId) (h : call.outside = true) :
    (call.effect newId).dst ≠ some completed ∧
      ((call.effect newId).dst = some failed → ∃ now, call = .markStaleLeases now) := by
  cases call with
  | transition jobId src dst hdst code msg =>
    have hd := JobSystem.stage_target hdst
    refine ⟨fun he => hd.1 (Option.some.inj he), fun he => ?_⟩
    have hf : dst = failed := Option.some.inj he
    subst hf
    rcases hdst with hdst | hdst <;> cases hdst
  | markStaleLeases now => exact ⟨by simp [Call.effect], fun _ => ⟨now, rfl⟩⟩
  | complete | fail => cases h
  | queue | claimNext | renewLease | requestCancel | retry | appendEvent | updateProgress
  | setStagedRoot => simp [Call.effect]

/-- A completed row keeps its run. -/
theorem JobStep.completed_after (hs : JobStep e j v v') (hr : v.row = some r)
    (hc : r.state = completed) :
    ∃ r', v'.row = some r' ∧ r'.state = completed ∧ r'.completedRunId = r.completedRunId := by
  cases hs with
  | same => exact ⟨r, hr, hc, rfl⟩
  | create => cases hr
  | move hdst hm =>
    cases hr
    have := legalTransition_active hm.legal
    rw [hc] at this
    cases this
  | touch ht =>
    cases hr
    exact ⟨_, rfl, ht.state.trans hc, ht.run⟩
  | note => exact ⟨r, hr, hc, rfl⟩

/-- Only a call that completes jobs makes a row completed. -/
theorem JobStep.completed_before {r' : AnalysisJob} (he : e.dst ≠ some completed)
    (hs : JobStep e j v v') (hr' : v'.row = some r') (hc : r'.state = completed) :
    ∃ r, v.row = some r ∧ r.state = completed ∧ r'.completedRunId = r.completedRunId := by
  cases hs with
  | same => exact ⟨r', hr', hc, rfl⟩
  | create hnew hcr =>
    cases hr'
    rw [hcr.state] at hc
    cases hc
  | move hdst hm =>
    cases hr'
    rw [hc] at hdst
    exact absurd hdst he
  | touch ht =>
    cases hr'
    exact ⟨_, rfl, ht.state ▸ hc, ht.run⟩
  | note => exact ⟨r', hr', hc, rfl⟩

/-- A publishing row ends by completion or failure only. -/
theorem JobStep.publishing_after (hc : e.dst ≠ some completed) (hf : e.dst ≠ some failed)
    (hs : JobStep e j v v') (hr : v.row = some r) (hp : r.state = publishingRun) :
    ∃ r', v'.row = some r' ∧ r'.state = publishingRun := by
  cases hs with
  | same => exact ⟨r, hr, hp⟩
  | create => cases hr
  | move hdst hm =>
    cases hr
    have hl := hm.legal
    rw [hp] at hl
    rcases legalTransition_of_publishing hl with h | h
    · rw [h] at hdst
      exact absurd hdst hc
    · rw [h] at hdst
      exact absurd hdst hf
  | touch ht =>
    cases hr
    exact ⟨_, rfl, ht.state.trans hp⟩
  | note => exact ⟨r, hr, hp⟩

namespace PublishSystem

variable {p p' : PublishSystem} {a : PublishAction}

/-- Row and published runs of `j`, by where its worker stands. -/
def PhaseOk (p : PublishSystem) (j : JobId) : Prop :=
  match p.publishers j with
  | none => p.Agree j
  | some .entered => (∃ r, p.jobs.store.job j = some r ∧ r.state = publishingRun) ∧
      ∀ n, ¬p.Imported j n
  | some (.imported runId) => runId < maxRowId ∧
      (∃ r, p.jobs.store.job j = some r ∧ r.state = publishingRun) ∧
      ∀ n, p.Imported j n ↔ n = runId

structure Inv (p : PublishSystem) : Prop where
  jobs : p.jobs.Inv
  calls : ∀ c ∈ p.jobs.inFlight, c.outside = true
  runs : ∀ r ∈ p.runs, r.id < maxRowId
  phase : ∀ j, p.PhaseOk j

theorem phaseOk_congr (hph : p'.publishers j = p.publishers j)
    (hrow : p'.jobs.store.job j = p.jobs.store.job j)
    (himp : ∀ n, p'.Imported j n ↔ p.Imported j n) (h : p.PhaseOk j) : p'.PhaseOk j := by
  simp only [PhaseOk, Agree, hph, hrow, himp] at h ⊢
  exact h

/-- In a phase of `publish` the job is in `PublishingRun`. -/
theorem publishing_of_phase (h : p.PhaseOk j) (hph : p.publishers j ≠ none) :
    ∃ r, p.jobs.store.job j = some r ∧ r.state = publishingRun := by
  unfold PhaseOk at h
  split at h
  · rename_i hnone
    exact absurd hnone hph
  · exact h.1
  · exact h.2.1

/-- An unfinished job whose worker has not imported anything has no published run. -/
theorem not_imported (h : p.PhaseOk j) (hph : ∀ n, p.publishers j ≠ some (.imported n))
    (hr : p.jobs.store.job j = some r) (ha : r.state.isActive = true) (n : Nat) :
    ¬p.Imported j n := by
  intro hn
  unfold PhaseOk at h
  split at h
  · obtain ⟨r', hr', hc, -⟩ := h.1 n hn
    rw [hr] at hr'
    cases hr'
    rw [hc] at ha
    cases ha
  · exact h.2 n hn
  · rename_i k hk
    exact hph k hk

theorem agree_of_not_imported (hno : ∀ n, ¬p.Imported j n)
    (hrow : ∀ r, p.jobs.store.job j = some r → r.state ≠ completed) : p.Agree j :=
  ⟨fun n hn => absurd hn (hno n), fun r hr hc => absurd hc (hrow r hr)⟩

/-! ## The steps of others -/

theorem insertRun_ok {runs runs' : List RunRow} {planId : Int} {startedAt : DateTime} {id : Nat}
    (hb : ∀ r ∈ runs, r.id < maxRowId) (h : insertRun runs planId startedAt = .ok (runs', id)) :
    (∀ r ∈ runs', r.id < maxRowId) ∧ id < maxRowId := by
  unfold insertRun at h
  split at h
  · rename_i r hr
    cases h
    exact ⟨hb, hb r (List.mem_of_find?_eq_some hr)⟩
  · simp only at h
    split at h
    · rename_i hlt
      cases h
      refine ⟨fun r hr => ?_, hlt⟩
      rcases List.mem_append.1 hr with hr | hr
      · exact hb r hr
      · rw [List.mem_singleton.1 hr]
        exact hlt
    · cases h

theorem calls_step (h : ∀ c ∈ p.jobs.inFlight, c.outside = true) {a : Action}
    (ha : a.outside = true) : ∀ c ∈ (p.jobs.step a).inFlight, c.outside = true := by
  cases a with
  | catalog c => exact h
  | read q =>
    simp only [JobSystem.step]
    split
    · rename_i call hcall
      intro c hc
      rcases List.mem_append.1 hc with hc | hc
      · exact h c hc
      · rw [List.mem_singleton.1 hc]
        exact read_outside ha hcall
    · exact h
  | commit i now later newId =>
    simp only [JobSystem.step]
    split
    · exact h
    · exact fun c hc => h c (List.mem_of_mem_eraseIdx hc)

theorem committed_mem {s : JobSystem} {a : Action} {c : Call} {res : Except String (JobStore × Answer)}
    (h : s.committed a = some (c, res)) : c ∈ s.inFlight := by
  cases a with
  | catalog c => cases h
  | read q => cases h
  | commit i now later newId =>
    simp only [JobSystem.committed, Option.map_eq_some_iff, Prod.mk.injEq] at h
    obtain ⟨c', hi, rfl, -⟩ := h
    exact List.mem_of_getElem? hi

theorem phase_job (h : p.Inv) {a : Action} (hu : p.Undisturbed (.job a)) (j : JobId) :
    PhaseOk { p with jobs := p.jobs.step a } j := by
  rcases JobSystem.step_store p.jobs a with hs | ⟨c, st, out, hc, hs⟩
  · exact phaseOk_congr (p := p) rfl (by simp only [hs]) (fun n => Iff.rfl) (h.phase j)
  obtain ⟨-, now, later, newId, he⟩ := JobSystem.committed_exec hc
  have hsteps := JobSystem.exec_step h.jobs.wf he
  obtain ⟨hnc, hfail⟩ := outside_effect newId (h.calls c (committed_mem hc))
  have hok := h.phase j
  by_cases hph : p.publishers j = none
  · -- nobody publishes `j`: the row can neither become completed nor stop being it
    simp only [PhaseOk, hph, Agree, hs] at hok ⊢
    refine ⟨fun n hn => ?_, fun r' hr' hd => ?_⟩
    · obtain ⟨r, hr, hd, hrun⟩ := hok.1 n hn
      obtain ⟨r', hr', hd', hrun'⟩ := (hsteps.2 j).completed_after hr hd
      exact ⟨r', hr', hd', hrun'.trans hrun⟩
    · obtain ⟨r, hr, hd', hrun⟩ := (hsteps.2 j).completed_before hnc hr' hd
      obtain ⟨n, hn, himp⟩ := hok.2 r hr hd'
      exact ⟨n, hrun.trans hn, himp⟩
  · -- a worker publishes `j`: the row stays in `PublishingRun`
    obtain ⟨r, hr, hp⟩ := publishing_of_phase hok hph
    have hstay : ∃ r', st.job j = some r' ∧ r'.state = publishingRun := by
      by_cases hf : (c.effect newId).dst = some failed
      · obtain ⟨at_, rfl⟩ := hfail hf
        have hfresh := hu at_ st out hc j r hph hr
        obtain ⟨t, ht, heq⟩ := map_ok he
        cases heq
        obtain ⟨-, -, hsame⟩ := JobStore.markStaleLeases_step j h.jobs.wf ht
        have hview := hsame fun q hq => by
          rw [hr] at hq
          cases hq
          exact hfresh
        exact ⟨r, (congrArg JobView.row hview).trans hr, hp⟩
      · exact (hsteps.2 j).publishing_after hnc hf hr hp
    cases hcase : p.publishers j with
    | none => exact absurd hcase hph
    | some ph =>
      cases ph with
      | entered =>
        simp only [PhaseOk, hcase, hs] at hok ⊢
        exact ⟨hstay, hok.2⟩
      | imported n =>
        simp only [PhaseOk, hcase, hs] at hok ⊢
        exact ⟨hok.1, hstay, hok.2.2⟩

/-! ## The worker's own steps -/

@[simp] theorem setPhase_publishers_self (p : PublishSystem) (j : JobId)
    (ph : Option PublishPhase) : (p.setPhase j ph).publishers j = ph := by
  simp [setPhase]

theorem setPhase_publishers_ne (p : PublishSystem) {i j : JobId} (ph : Option PublishPhase)
    (h : i ≠ j) : (p.setPhase j ph).publishers i = p.publishers i := by
  simp [setPhase, h]

/-- A step that writes only job `j` and its phase leaves every other job alone. -/
theorem phase_frame {i : JobId} {st : JobStore} {ph : Option PublishPhase} (hij : i ≠ j)
    (hrest : ∀ k, k ≠ j → st.view k = p.jobs.store.view k) (h : p.PhaseOk i) :
    ((p.setStore st).setPhase j ph).PhaseOk i :=
  phaseOk_congr (p := p) (setPhase_publishers_ne _ ph hij)
    (congrArg JobView.row (hrest i hij)) (fun _ => Iff.rfl) h

theorem phase_leave {ph : Option PublishPhase} {i : JobId} (hij : i ≠ j) (h : p.PhaseOk i) :
    (p.setPhase j ph).PhaseOk i :=
  phaseOk_congr (p := p) (setPhase_publishers_ne _ ph hij) rfl (fun _ => Iff.rfl) h

theorem phase_enter (h : p.Inv) {seen : JobState} {now : DateTime} {st : JobStore}
    (ht : p.jobs.store.transition j seen publishingRun (some "publishing")
      "Publishing completed run" now = .ok st) (i : JobId) :
    st.WF ∧ (∀ k, JobOk k (st.view k)) ∧
      ((p.setStore st).setPhase j (some .entered)).PhaseOk i := by
  obtain ⟨hst, hrest, r, hr, hseen, r', ev, hr', hv⟩ :=
    JobStore.transition_step h.jobs.wf (by decide) (by decide) ht
  refine ⟨hst.1, fun k => (h.jobs.ok k).step (hst.2 k), ?_⟩
  by_cases hij : i = j
  · subst hij
    have hstep := hst.2 i
    have hleg : legalTransition r.state publishingRun = true := by
      by_contra hn
      unfold JobStore.transition at ht
      exact absurd (guard_ok ht).1 (by simpa [hseen] using hn)
    have hph : p.publishers i = none := by
      by_contra hph
      obtain ⟨q, hq, hpub⟩ := publishing_of_phase (h.phase i) hph
      rw [hr] at hq
      cases hq
      exact legalTransition_ne hleg hpub
    have hno := not_imported (h.phase i) (by simp [hph]) hr (legalTransition_active hleg)
    simp only [PhaseOk, setPhase_publishers_self]
    exact ⟨⟨r', congrArg JobView.row hv, hr'⟩, hno⟩
  · exact phase_frame hij hrest (h.phase i)

theorem phase_fail (h : p.Inv) {seen : JobState} {code summary : String} {now : DateTime}
    {st : JobStore} (hph : ∀ n, p.publishers j ≠ some (.imported n))
    (hf : p.jobs.store.fail j seen code summary now = .ok st) (i : JobId) :
    st.WF ∧ (∀ k, JobOk k (st.view k)) ∧ ((p.setStore st).setPhase j none).PhaseOk i := by
  obtain ⟨hst, hrest, r, hr, ha, r', hr', hfailed⟩ := JobStore.fail_step h.jobs.wf hf
  refine ⟨hst.1, fun k => (h.jobs.ok k).step (hst.2 k), ?_⟩
  by_cases hij : i = j
  · subst hij
    have hno := not_imported (h.phase i) hph hr ha
    simp only [PhaseOk, setPhase_publishers_self]
    refine agree_of_not_imported hno fun q hq => ?_
    have : q = r' := Option.some.inj (hq.symm.trans hr')
    rw [this, hfailed]
    decide
  · exact phase_frame hij hrest (h.phase i)

/-- A worker that gives up before its import leaves nothing behind. -/
theorem phase_giveUp (h : p.Inv) (hph : ∀ n, p.publishers j ≠ some (.imported n)) (i : JobId) :
    (p.setPhase j none).PhaseOk i := by
  by_cases hij : i = j
  · subst hij
    simp only [PhaseOk, setPhase_publishers_self]
    have hok := h.phase i
    cases hcase : p.publishers i with
    | none =>
      simp only [PhaseOk, hcase] at hok
      exact hok
    | some ph =>
      cases ph with
      | entered =>
        simp only [PhaseOk, hcase] at hok
        obtain ⟨⟨r, hr, hp⟩, hno⟩ := hok
        refine agree_of_not_imported hno fun q hq => ?_
        have : q = r := Option.some.inj (hq.symm.trans hr)
        rw [this, hp]
        decide
      | imported n => exact absurd hcase (hph n)
  · exact phase_leave hij (h.phase i)

theorem mem_insertArtifact {l : List ArtifactRow} {a b : ArtifactRow} :
    b ∈ insertArtifact l a ↔ b ∈ l ∨ b = a := by
  unfold insertArtifact
  split
  · rename_i hc
    refine ⟨Or.inl, ?_⟩
    rintro (hb | rfl)
    · exact hb
    · simpa using hc
  · simp

theorem phase_import (h : p.Inv) {startedAt : DateTime} {runId : Nat} {q : PublishSystem}
    (hph : p.publishers j = some .entered)
    (hi : p.importFinalizedRun j r.planRevisionId startedAt = .ok (q, runId)) :
    (q.setPhase j (some (.imported runId))).Inv := by
  obtain ⟨⟨runs, id⟩, hins, heq⟩ := bind_ok hi
  cases heq
  obtain ⟨hruns, hid⟩ := insertRun_ok h.runs hins
  refine ⟨h.jobs, h.calls, hruns, fun i => ?_⟩
  have hok := h.phase i
  by_cases hij : i = j
  · subst hij
    simp only [PhaseOk, hph] at hok
    simp only [PhaseOk, setPhase_publishers_self]
    refine ⟨hid, hok.1, fun n => ?_⟩
    change (⟨n, i⟩ : ArtifactRow) ∈ insertArtifact p.artifacts ⟨runId, i⟩ ↔ n = runId
    rw [mem_insertArtifact]
    constructor
    · rintro (hn | hn)
      · exact absurd hn (hok.2 n)
      · cases hn
        rfl
    · rintro rfl
      exact Or.inr rfl
  · refine phaseOk_congr (p := p) (setPhase_publishers_ne _ _ hij) rfl (fun n => ?_) hok
    change (⟨n, i⟩ : ArtifactRow) ∈ insertArtifact p.artifacts ⟨runId, j⟩ ↔ _
    rw [mem_insertArtifact]
    constructor
    · rintro (hn | hn)
      · exact hn
      · cases hn
        exact absurd rfl hij
    · exact Or.inl

theorem phase_complete (h : p.Inv) {runId : Nat} {now : DateTime} {st : JobStore}
    (hph : p.publishers j = some (.imported runId))
    (hc : p.jobs.store.complete j runId now = .ok st) (i : JobId) :
    st.WF ∧ (∀ k, JobOk k (st.view k)) ∧ ((p.setStore st).setPhase j none).PhaseOk i := by
  obtain ⟨hst, hrest, r, hr, hp, r', ev, hd, hrun, hv⟩ := JobStore.complete_step h.jobs.wf hc
  refine ⟨hst.1, fun k => (h.jobs.ok k).step (hst.2 k), ?_⟩
  by_cases hij : i = j
  · subst hij
    have hok := h.phase i
    simp only [PhaseOk, hph] at hok
    simp only [PhaseOk, setPhase_publishers_self]
    have hrow : st.job i = some r' := congrArg JobView.row hv
    refine ⟨fun n hn => ⟨r', hrow, hd, ?_⟩, fun q hq hqd => ⟨runId, ?_, (hok.2.2 runId).2 rfl⟩⟩
    · rw [hrun, (hok.2.2 n).1 hn]
    · have : q = r' := Option.some.inj (hq.symm.trans hrow)
      rw [this, hrun]
  · exact phase_frame hij hrest (h.phase i)

/-! ## Runs -/

theorem inv_start (c : Catalog) : (start c).Inv :=
  ⟨JobSystem.inv_start c, by simp [start, JobSystem.start], by simp [start],
    fun j => ⟨fun n hn => by simp [Imported, start] at hn, fun r hr => by cases hr⟩⟩

/-- A publisher without an imported run that fails its job, or gives up on it. -/
theorem inv_fail (h : p.Inv) {seen : JobState} {code summary : String} {now : DateTime} {st : JobStore}
    (hph : ∀ n, p.publishers j ≠ some (.imported n))
    (hf : p.jobs.store.fail j seen code summary now = .ok st) :
    ((p.setStore st).setPhase j none).Inv :=
  ⟨⟨(phase_fail h hph hf j).1, (phase_fail h hph hf j).2.1⟩, h.calls, h.runs,
    fun i => (phase_fail h hph hf i).2.2⟩

theorem inv_giveUp (h : p.Inv) (hph : ∀ n, p.publishers j ≠ some (.imported n)) :
    (p.setPhase j none).Inv :=
  ⟨h.jobs, h.calls, h.runs, phase_giveUp h hph⟩

theorem inv_step (h : p.Inv) (hu : p.Undisturbed a) : (p.step a).Inv := by
  cases a with
  | job a =>
    simp only [step]
    split
    · rename_i ha
      exact ⟨JobSystem.inv_step h.jobs a, calls_step h.calls ha, h.runs, phase_job h hu⟩
    · exact h
  | otherImport planId startedAt =>
    simp only [step]
    split
    · rename_i runs id hins
      exact ⟨h.jobs, h.calls, (insertRun_ok h.runs hins).1, h.phase⟩
    · exact h
  | enter j seen now =>
    simp only [step]
    split
    · rename_i st ht
      exact ⟨⟨(phase_enter h ht j).1, (phase_enter h ht j).2.1⟩, h.calls, h.runs,
        fun i => (phase_enter h ht i).2.2⟩
    · exact h
  | fail j seen code summary now =>
    cases hph : p.publishers j with
    | none =>
      simp only [step, hph]
      split
      · rename_i st hf
        exact inv_fail h (by simp [hph]) hf
      · exact inv_giveUp h (by simp [hph])
    | some ph =>
      cases ph with
      | entered =>
        simp only [step, hph]
        split
        · rename_i st hf
          exact inv_fail h (by simp [hph]) hf
        · exact inv_giveUp h (by simp [hph])
      | imported n =>
        simp only [step, hph]
        exact h
  | importRun j startedAt =>
    simp only [step]
    split
    · rename_i r hph hr
      split
      · rename_i q runId hi
        exact phase_import h hph hi
      · exact h
    · exact h
  | complete j now =>
    cases hph : p.publishers j with
    | none =>
      simp only [step, hph]
      exact h
    | some ph =>
      cases ph with
      | entered =>
        simp only [step, hph]
        exact h
      | imported runId =>
        -- the completion cannot fail: the row is in `PublishingRun` and the event fits
        have hok := h.phase j
        simp only [PhaseOk, hph] at hok
        obtain ⟨hid, ⟨r, hr, hp⟩, -⟩ := hok
        obtain ⟨st, hc⟩ := JobStore.complete_ok now hr hp hid
        simp only [step, hph, hc]
        exact ⟨⟨(phase_complete h hph hc j).1, (phase_complete h hph hc j).2.1⟩, h.calls, h.runs,
          fun i => (phase_complete h hph hc i).2.2⟩
  | crash j =>
    simp only [step]
    exact inv_giveUp h hu

theorem inv_run (c : Catalog) {as : List PublishAction}
    (hu : Along step Undisturbed (start c) as) : (run step (start c) as).Inv :=
  run_along (inv_start c) (fun _ _ h hu => inv_step h hu) hu

/-- **Publication and completion agree.** In every state of an undisturbed run the staged run of
a job is published iff the job is completed and links it, unless the job's worker stands between
its import and its completion just then; and a failed or cancelled job has no published run. -/
theorem publication_agrees_iff (c : Catalog) (as : List PublishAction)
    (hu : Along step Undisturbed (start c) as) (j : JobId) :
    ((run step (start c) as).Agree j ↔
        ∀ n, (run step (start c) as).publishers j ≠ some (.imported n)) ∧
      ∀ r, (run step (start c) as).jobs.store.job j = some r →
        r.state = failed ∨ r.state = cancelled → ∀ n, ¬(run step (start c) as).Imported j n := by
  have hok := (inv_run c hu).phase j
  generalize run step (start c) as = p at hok
  cases hph : p.publishers j with
  | none =>
    simp only [PhaseOk, hph] at hok
    refine ⟨by simpa using hok, fun r hr hf n hn => ?_⟩
    obtain ⟨r', hr', hd, -⟩ := hok.1 n hn
    rw [hr] at hr'
    cases hr'
    rcases hf with hf | hf <;> rw [hf] at hd <;> cases hd
  | some ph =>
    cases ph with
    | entered =>
      simp only [PhaseOk, hph] at hok
      obtain ⟨⟨r, hr, hp⟩, hno⟩ := hok
      refine ⟨iff_of_true (agree_of_not_imported hno fun q hq => ?_) (by simp), fun _ _ _ => hno⟩
      rw [hr] at hq
      cases hq
      rw [hp]
      decide
    | imported runId =>
      simp only [PhaseOk, hph] at hok
      obtain ⟨-, ⟨r, hr, hp⟩, himp⟩ := hok
      refine ⟨iff_of_false (fun hag => ?_) (by simp), fun q hq hf n hn => ?_⟩
      · obtain ⟨r', hr', hd, -⟩ := hag.1 runId ((himp runId).2 rfl)
        rw [hr] at hr'
        cases hr'
        rw [hp] at hd
        cases hd
      · rw [hr] at hq
        cases hq
        rw [hp] at hf
        rcases hf with hf | hf <;> cases hf

/-! ## A publication, and one with a stale scan in it -/

def call (r : Request) (now : DateTime) (newId : JobId) : List PublishAction :=
  (JobSystem.call r now newId).map .job

/-- Job `j` is claimed at `now` with a lease of 90 and runs up to its import. -/
def upToImport (j : JobId) (now : DateTime) : List PublishAction :=
  call (.claimNext "w" 90) now "" ++
    call (.stage j claimed renderingArtifacts rfl none "") (now + 1) "" ++
    [.enter j renderingArtifacts (now + 2), .importRun j now]

def publishA : List PublishAction :=
  call (.queue 1 .cli "h") 0 "a" ++ upToImport "a" 1 ++ [.complete "a" 4]

/-- A job action that commits no stale scan disturbs nobody. -/
theorem undisturbed_job {a : Action}
    (h : ((p.jobs.committed a).any fun x => x.1 matches .markStaleLeases _) = false) :
    p.Undisturbed (.job a) := by
  intro now st out hc
  rw [hc] at h
  cases h

theorem publication_agrees_publishA :
    ((run step (start JobSystem.readyCatalog) publishA).Agree "a" ↔
        ∀ n, (run step (start JobSystem.readyCatalog) publishA).publishers "a" ≠
          some (.imported n)) ∧
      ∀ r, (run step (start JobSystem.readyCatalog) publishA).jobs.store.job "a" = some r →
        r.state = failed ∨ r.state = cancelled →
          ∀ n, ¬(run step (start JobSystem.readyCatalog) publishA).Imported "a" n :=
  publication_agrees_iff JobSystem.readyCatalog publishA
    ⟨undisturbed_job (by decide), undisturbed_job (by decide), undisturbed_job (by decide),
      undisturbed_job (by decide), undisturbed_job (by decide), undisturbed_job (by decide),
      trivial, trivial, trivial, trivial⟩ "a"

/-- The lease of `a` ran out while it was imported; a scan fails it, the worker's completion is
refused, and a retry publishes the plan a second time. -/
def scanWhilePublishing : List PublishAction :=
  call (.queue 1 .cli "h") 0 "a" ++ upToImport "a" 1 ++
    call (.markStaleLeases 1000) 1000 "" ++ [.complete "a" 1001] ++
    call (.retry "a" .cli "h") 1002 "b" ++ upToImport "b" 1003 ++ [.complete "b" 1007]

/-- **Bug.** Job `a` ends `Failed` with run 1 published for it, and its retry publishes run 2 of
the same plan. -/
theorem staleScan_during_publish :
    (run step (start JobSystem.readyCatalog) scanWhilePublishing).publishers "a" = none ∧
    ((run step (start JobSystem.readyCatalog) scanWhilePublishing).jobs.store.job "a").map
        (fun r => (r.state, r.completedRunId)) = some (failed, none) ∧
    (run step (start JobSystem.readyCatalog) scanWhilePublishing).Imported "a" 1 ∧
    ((run step (start JobSystem.readyCatalog) scanWhilePublishing).jobs.store.job "b").map
        (fun r => (r.state, r.completedRunId)) = some (completed, some 2) ∧
    (run step (start JobSystem.readyCatalog) scanWhilePublishing).runs.map (·.planId) = [1, 1] := by
  unfold Imported
  decide

end PublishSystem

end Inim
