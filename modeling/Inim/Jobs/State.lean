import Mathlib.Data.List.Basic

/-!
# `JobState`: the states of an analysis job and the transitions between them

| here | there |
| --- | --- |
| `JobState`, `asStr`, `parseState`     | `JobState::as_str`, `parse_state` (`catalog/jobs/mod.rs:17-80`) |
| `isActive`, `isRetryable`, `isCancellable` | the predicates of `catalog/jobs/mod.rs:82-115` |
| `executing`, `stageOrder`             | the two arrays of `legal_transition` and `stage_advance` |
| `stageAdvance`, `legalTransition`     | `stage_advance`, `legal_transition` (`catalog/jobs/mod.rs:119-177`) |
| `stageLabel`                          | `JobState::stage_label` (`catalog/jobs/service.rs:376-389`) |
-/

namespace Inim

inductive JobState where
  | queued
  | claimed
  | discoveringArchives
  | acquiringArchives
  | parsingBaseline
  | freezingCohort
  | parsingUpdates
  | reconstructingRoutes
  | derivingEvidence
  | renderingArtifacts
  | validatingArtifacts
  | publishingRun
  | completed
  | cancelRequested
  | cancelled
  | failed
deriving DecidableEq, Repr

namespace JobState

def asStr : JobState → String
  | .queued => "Queued"
  | .claimed => "Claimed"
  | .discoveringArchives => "DiscoveringArchives"
  | .acquiringArchives => "AcquiringArchives"
  | .parsingBaseline => "ParsingBaseline"
  | .freezingCohort => "FreezingCohort"
  | .parsingUpdates => "ParsingUpdates"
  | .reconstructingRoutes => "ReconstructingRoutes"
  | .derivingEvidence => "DerivingEvidence"
  | .renderingArtifacts => "RenderingArtifacts"
  | .validatingArtifacts => "ValidatingArtifacts"
  | .publishingRun => "PublishingRun"
  | .completed => "Completed"
  | .cancelRequested => "CancelRequested"
  | .cancelled => "Cancelled"
  | .failed => "Failed"

/-- Every state, in declaration order. -/
def all : List JobState :=
  [.queued, .claimed, .discoveringArchives, .acquiringArchives, .parsingBaseline,
    .freezingCohort, .parsingUpdates, .reconstructingRoutes, .derivingEvidence,
    .renderingArtifacts, .validatingArtifacts, .publishingRun, .completed, .cancelRequested,
    .cancelled, .failed]

/-- `parse_state`: the state whose name is `s`. -/
def parseState (s : String) : Except String JobState :=
  match all.find? (fun st => st.asStr == s) with
  | some st => .ok st
  | none => .error ("unknown job state: " ++ s)

/-- The `state` column is text: writing a state and reading it back gives the
state, so the model keeps the state itself in the row. -/
theorem parseState_asStr (st : JobState) : parseState st.asStr = .ok st := by
  cases st <;> decide

def isActive : JobState → Bool
  | .completed | .cancelled | .failed => false
  | .queued | .claimed | .discoveringArchives | .acquiringArchives | .parsingBaseline
  | .freezingCohort | .parsingUpdates | .reconstructingRoutes | .derivingEvidence
  | .renderingArtifacts | .validatingArtifacts | .publishingRun | .cancelRequested => true

def isRetryable (s : JobState) : Bool := s == .failed || s == .cancelled

/-- `executing` of `legal_transition`: claimed and not yet publishing. -/
def executing : List JobState :=
  [.claimed, .discoveringArchives, .acquiringArchives, .parsingBaseline, .freezingCohort,
    .parsingUpdates, .reconstructingRoutes, .derivingEvidence, .renderingArtifacts,
    .validatingArtifacts]

def isCancellable (s : JobState) : Bool := s == .queued || executing.contains s

/-- The fixed order of `stage_advance`. -/
def stageOrder : List JobState := executing ++ [.publishingRun]

/-- Any forward step in the fixed order; a stage is never re-entered. -/
def stageAdvance (src dst : JobState) : Bool :=
  match stageOrder.idxOf? src, stageOrder.idxOf? dst with
  | some a, some b => decide (a < b)
  | some _, none => false
  | none, _ => false

/-- `stage_label`: the working stages, under the name of the state. -/
def stageLabel (s : JobState) : Option String :=
  match s with
  | .queued | .claimed | .completed | .cancelRequested | .cancelled | .failed => none
  | .discoveringArchives | .acquiringArchives | .parsingBaseline | .freezingCohort
  | .parsingUpdates | .reconstructingRoutes | .derivingEvidence | .renderingArtifacts
  | .validatingArtifacts | .publishingRun => some s.asStr

end JobState

open JobState

def legalTransition (src dst : JobState) : Bool :=
  if src = dst then false
  else
    [(queued, claimed), (queued, cancelled), (queued, failed),
      -- a freshly claimed job may still be cancelled by the project-scope policy
      (claimed, cancelled),
      (cancelRequested, cancelled), (cancelRequested, failed),
      (publishingRun, completed), (publishingRun, failed)].contains (src, dst)
    || (executing.contains src && (dst == cancelRequested || dst == failed))
    || (executing.contains src && stageAdvance src dst)

/-! ## What `legal_transition` rules out -/

/-- Terminal states have no way out. -/
theorem legalTransition_active {src dst : JobState} (h : legalTransition src dst = true) :
    src.isActive = true := by
  revert h
  cases src <;> cases dst <;> decide

theorem legalTransition_ne {src dst : JobState} (h : legalTransition src dst = true) :
    src ≠ dst := by
  rintro rfl
  simp [legalTransition] at h

/-- `Completed` is entered from `PublishingRun` only. -/
theorem legalTransition_completed {src : JobState}
    (h : legalTransition src completed = true) : src = publishingRun := by
  revert h
  cases src <;> decide

/-- No job goes back to `Queued`. -/
theorem not_legalTransition_queued (src : JobState) : legalTransition src queued = false := by
  cases src <;> decide

/-- A queued job is claimed or ends. -/
theorem legalTransition_of_queued {dst : JobState} (h : legalTransition queued dst = true) :
    dst = claimed ∨ dst.isActive = false := by
  revert h
  cases dst <;> decide

/-- Publication ends in `Completed` or `Failed`. -/
theorem legalTransition_of_publishing {dst : JobState}
    (h : legalTransition publishingRun dst = true) : dst = completed ∨ dst = failed := by
  revert h
  cases dst <;> decide

/-- A requested cancellation ends in `Cancelled` or `Failed`. -/
theorem legalTransition_cancelRequested {dst : JobState}
    (h : legalTransition cancelRequested dst = true) : dst = cancelled ∨ dst = failed := by
  revert h
  cases dst <;> decide

end Inim
