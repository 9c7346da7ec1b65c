import Inim.Jobs.Lease

/-!
# Publication: the worker's `publish` sequence beside everything else

| here | there |
| --- | --- |
| `RunRow`, `insertRun`            | `analysis_runs` and `store::insert_run` (`store.rs:134-167`): a run of the same plan and start time is reused |
| `ArtifactRow`                    | the rows of `analysis_artifacts` under `data/runs/<job_id>/` |
| `importFinalizedRun`             | the transaction of `import_finalized_run` (`publish.rs:224-328`); its other errors are the worker's `fail` |
| `PublishPhase`                   | where the worker stands in `publish` (`worker.rs:726-837`) |
| `PublishAction.enter`, `importRun`, `complete` | `enter_publishing`, `publish_staged_run`, `service::complete`, in this order |
| `PublishAction.fail`, `crash`    | a `fail_job` of the worker, its death |

The import and the completion are two transactions. `publish_staged_run` says that it "performs
the rename + catalog transaction and marks the job Completed" (`publish.rs:175-179`); it does
not, and the import does not look at the job's state either. `publication_agrees_iff` is what
holds when nothing comes between; `staleScan_during_publish` is what a scan in between does.
-/

namespace Inim

open JobState
open Inim.Lib

structure RunRow where
  id : Nat
  planId : Int
  startedAt : DateTime
deriving DecidableEq, Repr

/-- A file of job `jobId`'s run directory, imported for run `runId`. -/
structure ArtifactRow where
  runId : Nat
  jobId : JobId
deriving DecidableEq, Repr

/-- The largest rowid SQLite hands out is `2^63 - 1`. -/
def maxRowId : Nat := 2 ^ 63

def insertRun (runs : List RunRow) (planId : Int) (startedAt : DateTime) :
    Except String (List RunRow × Nat) :=
  match runs.find? fun r => r.planId == planId && r.startedAt == startedAt with
  | some r => .ok (runs, r.id)
  | none =>
    let id := (runs.map (·.id)).foldr max 0 + 1
    if id < maxRowId then .ok (runs ++ [⟨id, planId, startedAt⟩], id)
    else .error "catalog write failed: database or disk is full"

/-- `insert_artifact` keeps one row for each run and path. -/
def insertArtifact (artifacts : List ArtifactRow) (a : ArtifactRow) : List ArtifactRow :=
  if artifacts.contains a then artifacts else artifacts ++ [a]

inductive PublishPhase where
  | entered
  | imported (runId : Nat)
deriving DecidableEq, Repr

structure PublishSystem where
  jobs : JobSystem
  runs : List RunRow
  artifacts : List ArtifactRow
  publishers : JobId → Option PublishPhase

inductive PublishAction where
  | job (a : Action)
  | otherImport (planId : Int) (startedAt : DateTime)
  | enter (jobId : JobId) (seen : JobState) (now : DateTime)
  | fail (jobId : JobId) (seen : JobState) (code summary : String) (now : DateTime)
  | importRun (jobId : JobId) (startedAt : DateTime)
  | complete (jobId : JobId) (now : DateTime)
  | crash (jobId : JobId)

/-- What only the job's own worker calls, and only from `publish` or before it gives up. -/
def Request.outside : Request → Bool
  | .complete _ _ | .enterPublishing _ | .fail _ _ _ _ | .failJob _ _ _ => false
  | .stage _ _ dst _ _ _ => dst != publishingRun
  | .queue _ _ _ | .claimNext _ _ | .renewLease _ _ _ | .observeCancel _
  | .cancelScopeExcluded _ | .requestCancel _ | .markStaleLeases _ | .retry _ _ _
  | .appendEvent _ _ | .updateProgress _ _ _ _ _ | .setStagedRoot _ _ => true

def Action.outside : Action → Bool
  | .read r => r.outside
  | .catalog _ | .commit _ _ _ _ => true

namespace PublishSystem

def start (c : Catalog) : PublishSystem := ⟨.start c, [], [], fun _ => none⟩

def setStore (p : PublishSystem) (st : JobStore) : PublishSystem :=
  { p with jobs := { p.jobs with store := st } }

def setPhase (p : PublishSystem) (j : JobId) (ph : Option PublishPhase) : PublishSystem :=
  { p with publishers := Function.update p.publishers j ph }

def importFinalizedRun (p : PublishSystem) (j : JobId) (planId : Int) (startedAt : DateTime) :
    Except String (PublishSystem × Nat) := do
  let (runs, runId) ← insertRun p.runs planId startedAt
  return ({ p with runs, artifacts := insertArtifact p.artifacts ⟨runId, j⟩ }, runId)

def step (p : PublishSystem) : PublishAction → PublishSystem
  | .job a => if a.outside then { p with jobs := p.jobs.step a } else p
  | .otherImport planId startedAt =>
    match insertRun p.runs planId startedAt with
    | .ok (runs, _) => { p with runs }
    | .error _ => p
  | .enter j seen now =>
    match p.jobs.store.transition j seen publishingRun (some "publishing")
        "Publishing completed run" now with
    | .ok st => (p.setStore st).setPhase j (some .entered)
    | .error _ => p
  | .fail j seen code summary now =>
    match p.publishers j with
    | some (.imported _) => p
    | some .entered | none =>
      match p.jobs.store.fail j seen code summary now with
      | .ok st => (p.setStore st).setPhase j none
      | .error _ => p.setPhase j none
  | .importRun j startedAt =>
    match p.publishers j, p.jobs.store.job j with
    | some .entered, some r =>
      match p.importFinalizedRun j r.planRevisionId startedAt with
      | .ok (p, runId) => p.setPhase j (some (.imported runId))
      | .error _ => p
    | _, _ => p
  | .complete j now =>
    match p.publishers j with
    | some (.imported runId) =>
      match p.jobs.store.complete j runId now with
      | .ok st => (p.setStore st).setPhase j none
      | .error _ => p.setPhase j none
    | some .entered | none => p
  | .crash j => p.setPhase j none

/-- The staged run of job `j` is published as run `runId`. -/
def Imported (p : PublishSystem) (j : JobId) (runId : Nat) : Prop :=
  (⟨runId, j⟩ : ArtifactRow) ∈ p.artifacts

/-- The two facts about `j` agree: a run published for it is the one it completed with, and it
completed with a run published for it. -/
def Agree (p : PublishSystem) (j : JobId) : Prop :=
  (∀ runId, p.Imported j runId → ∃ r, p.jobs.store.job j = some r ∧ r.state = completed ∧
    r.completedRunId = some (runId : Int)) ∧
  ∀ r, p.jobs.store.job j = some r → r.state = completed →
    ∃ runId : Nat, r.completedRunId = some (runId : Int) ∧ p.Imported j runId

/-- Nothing comes between the steps of a publication: the worker does not die after its import
and before its completion, and no stale scan finds the lease of a publishing job expired. -/
def Undisturbed (p : PublishSystem) : PublishAction → Prop
  | .crash j => ∀ runId, p.publishers j ≠ some (.imported runId)
  | .job a => ∀ now st out, p.jobs.committed a = some (.markStaleLeases now, .ok (st, out)) →
    ∀ j r, p.publishers j ≠ none → p.jobs.store.job j = some r →
      JobStore.staleLease now r = false
  | .otherImport _ _ | .enter _ _ _ | .fail _ _ _ _ _ | .importRun _ _ | .complete _ _ => True

end PublishSystem

/-! ## Completion goes through from `PublishingRun` -/

namespace JobStore

variable {st : JobStore} {j : JobId} {r : AnalysisJob}

theorem hasPair_of_not_mem {a b : Char} {l : List Char} (h : a ∉ l) : hasPair a b l = false := by
  fun_induction hasPair a b l with
  | case1 => rfl
  | case2 => rfl
  | case3 x y rest ih =>
    simp only [List.mem_cons, not_or] at h ih
    simp [ih h.2, Ne.symm h.1]

theorem toList_toString (n : Nat) : (toString (n : Int)).toList = Nat.toDigits 10 n := by
  rw [Int.toString_eq_repr]
  exact Nat.toList_repr

theorem utf8Len_le (l : List Char) : String.utf8Len l ≤ 4 * l.length := by
  induction l with
  | nil => simp
  | cons c l ih =>
    have := Char.utf8Size_le_four c
    simp only [String.utf8Len_cons, List.length_cons]
    omega

/-- A row id is short and has no colon in it. -/
theorem runDetail_ok {n : Nat} (h : n < maxRowId) :
    ("run_id=" ++ toString (n : Int)).utf8ByteSize ≤ maxStructuredDetailBytes ∧
      absolutePath ("run_id=" ++ toString (n : Int)) = false := by
  have hlen : (Nat.toDigits 10 n).length ≤ 19 := by
    rw [Nat.length_toDigits_le_iff (by decide) (by decide)]
    exact h.trans (by decide)
  have hsize : (toString (n : Int)).utf8ByteSize ≤ 4 * 19 := by
    have := utf8Len_le (Nat.toDigits 10 n)
    rw [← String.ofList_toList (s := toString (n : Int)), String.utf8ByteSize_ofList, toList_toString]
    omega
  have hcolon : ':' ∉ ("run_id=" ++ toString (n : Int)).toList := by
    rw [String.toList_append, toList_toString, List.mem_append]
    rintro (hc | hc)
    · revert hc
      decide
    · have := Nat.isDigit_of_mem_toDigits (by decide) (by decide) hc
      revert this
      decide
  constructor
  · rw [String.utf8ByteSize_append]
    have h7 : "run_id=".utf8ByteSize = 7 := by decide
    have hmax : maxStructuredDetailBytes = 4096 := rfl
    omega
  · have hhead : ("run_id=" ++ toString (n : Int)).toList.head? = some 'r' := by
      rw [String.toList_append]
      rfl
    rw [absolutePath, hhead, hasPair_of_not_mem hcolon, hasPair_of_not_mem hcolon]
    decide

theorem complete_ok {runId : Nat} (now : DateTime) (hr : st.job j = some r) (hs : r.state = publishingRun)
    (hid : runId < maxRowId) : ∃ st', st.complete j runId now = .ok st' := by
  have hrows : st.rows j (·.state == publishingRun) ≠ 0 := by
    rw [← Nat.pos_iff_ne_zero, rows, List.countP_pos_iff]
    exact ⟨r, job_mem hr, by simp [job_id hr, hs]⟩
  have hget : st.get j = .ok r := by simp only [get, hr]
  have hmsg : "Analysis complete; run published".utf8ByteSize ≤ maxHumanMessageBytes := by decide
  have hf : ∀ q, (completedRow (runId : Int) now q).id = q.id := fun _ => rfl
  have hjob : ((st.update j (·.state == publishingRun) (completedRow (runId : Int) now)).job
      j).isSome = true := by
    rw [job_update st hf, hr]
    rfl
  unfold complete
  rw [hget]
  simp only [bind, Except.bind, hs, ne_eq, not_true_eq_false, if_false, hrows]
  refine ⟨_, appendEventTx_of (eventRefusal_of hmsg ?_) hjob (nextSequence_fresh _ j)⟩
  intro d hd
  cases hd
  exact runDetail_ok hid

end JobStore

end Inim
