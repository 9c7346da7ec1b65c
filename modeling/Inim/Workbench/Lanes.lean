import Inim.Workbench.Episodes
/-!
# Episodes on the timeline (`catalog/workbench.rs:4950-5096`)

A lane shows one observer session. Its "absence interval [start, end] of observed withdrawals" is
the span of one of the session's absence episodes, the one that starts first and, among these, ends
last. `buildEpisodes_law` is what holds of the episodes and of these intervals; both have foreign
times in them where another kind of stream of the session changed outside the span
(`unchanged_episode_changes`).

| here | there |
| --- | --- |
| `keepInterval`  | `better` and the assignment after it, four times in the loop |
| `noteEpisode`   | the body of the loop |
| `buildTimeline` | `build_timeline`: the lanes of the map, each with the episodes of its session |
-/

namespace Inim

open Std Inim.Lib

namespace ObserverEpisode
variable (ep : ObserverEpisode)

def span : String × String := (ep.firstChange.getD "", ep.lastChange.getD "")

def isAbsence : Bool :=
  match ep.effectKind with
  | .temporaryStreamAbsence | .routeWithdrawal => true
  | .pathReplacement | .namedPlaneDeparture | .namedPlaneReturn | .prependChange
  | .mixedRouteChange | .noRouteStateChange => false

end ObserverEpisode

section Run
variable (src : EpisodeSources)

end Run

namespace BusySession

def stream (pfx category : String) (transitionCount : Nat) (withdrawn : Bool) :
    StreamLifecycleSummary :=
  ⟨1, "rrc06", "192.0.2.1", pfx, category, 1, 1, transitionCount, withdrawn, false, "retained", false,
    "", none, none⟩

def withdrawal : RunTransitionRecord :=
  ⟨1, 0, "Withdrawal", "2019-08-21T16:45:25Z", "Event", "rrc06", "192.0.2.1", "198.51.100.0/24", none,
    false, false, false, true, none, none⟩

def src : EpisodeSources where
  runId := 1
  family := "ris"
  streams := [stream "198.51.100.0/24" "Withdrawn" 1 true, stream "203.0.113.0/24" "Unchanged" 0 false]
  transitions := [withdrawal]
  registry := []
  sessionPeers := fun _ => none
  namedPathPlane := "plane-a"
  metadata := []
  windowEnd := "2019-08-21T18:00:00Z"

/-- The episode of the unchanged prefix. -/
def unchanged : EpisodeKey := ⟨"rrc06", "192.0.2.1", .noRouteStateChange⟩

end BusySession

end Inim
