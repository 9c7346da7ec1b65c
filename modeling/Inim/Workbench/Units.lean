import Inim.Lib.Parts
import Inim.Lib.Extremes
import Inim.Discover.Select
import Inim.Workbench.Episodes

/-!
# The unit counts of the workbench (`catalog/workbench.rs:4500-4684`, `:5670-5871`, `:5929-6005`)

Regional breadth counts sessions, streams and prefixes through key sets, but adds up the baseline
streams of the episodes and takes the transitions of a session from its first episode. The totals add
up the regions. The grouped cues count the sessions of two of their groups through a set and those of
the other two as episodes.

| here | there |
| --- | --- |
| `RegionObservationSummary.addEpisode`, `finalize`, `regionalBreadth` | `regional_breadth` (:4578) |
| `workbenchTime`      | `workbench_time` (:3870) |
| `buildGroupedCues`   | `build_grouped_cues` (:5697) |
| `WorkbenchUnits.fromParts` | `WorkbenchUnits::from_parts` (:5970) |

A set of the source is the list of its elements in the order they were inserted, and of the sessions
without a baseline only the region is read. `unitsCount_iff` says when every count is a cardinality.
-/

namespace Inim

open Std Inim.Lib

/-! ## Regional breadth -/

structure RegionObservationSummary where
  region : String
  eligibleObserverSessions : Nat
  changedObserverSessions : Nat
  unchangedObserverSessions : Nat
  sessionsWithoutBaselineVisibility : Nat
  sessionsWithIncompleteCoverage : Nat
  episodeCount : Nat
  changedStreams : Nat
  baselineStreams : Nat
  changedPrefixes : Nat
  routeInstances : Nat
  transitionCount : Nat
  firstChange : Option String
  lastRestoration : Option String
  changedSessionKeys : List SessionKey
  unchangedSessionKeys : List SessionKey
  changedStreamKeys : List (String × String)
  changedPrefixSet : List String
  transitionSessions : List SessionKey
deriving DecidableEq, Repr

def emptyRegion (region : String) : RegionObservationSummary :=
  ⟨region, 0, 0, 0, 0, 0, 0, 0, 0, 0, 0, 0, none, none, [], [], [], [], []⟩

namespace ObserverEpisode

def session (e : ObserverEpisode) : SessionKey := sessionKeyOf e.observerSession

def changed (e : ObserverEpisode) : Bool := e.effectKind ≠ .noRouteStateChange

end ObserverEpisode

namespace RegionObservationSummary

/-- The unique sessions (`:4606-4615`). -/
def countSession (r : RegionObservationSummary) (key : SessionKey) (changed : Bool) :
    RegionObservationSummary :=
  if changed then
    if key ∈ r.changedSessionKeys then r
    else { r with
      changedObserverSessions := r.changedObserverSessions + 1
      changedSessionKeys := r.changedSessionKeys ++ [key] }
  else if key ∈ r.unchangedSessionKeys then r
  else { r with
    unchangedObserverSessions := r.unchangedObserverSessions + 1
    unchangedSessionKeys := r.unchangedSessionKeys ++ [key] }

/-- The transitions of a session, once (`:4620-4622`). -/
def countTransitions (r : RegionObservationSummary) (e : ObserverEpisode) : RegionObservationSummary :=
  if e.session ∈ r.transitionSessions then r
  else { r with
    transitionSessions := r.transitionSessions ++ [e.session]
    transitionCount := r.transitionCount + e.transitionCount }

/-- A member stream of a changed episode (`:4626-4635`). -/
def countStream (session : String) (r : RegionObservationSummary) (s : EpisodeStream) :
    RegionObservationSummary :=
  let r := if r.changedStreamKeys.contains (session, s.pfx) then r
    else { r with
      changedStreams := r.changedStreams + 1
      routeInstances := r.routeInstances + (max s.maxActiveInstances 1).toNat
      changedStreamKeys := r.changedStreamKeys ++ [(session, s.pfx)] }
  { r with changedPrefixSet := keepNew r.changedPrefixSet s.pfx }

def countEpisode (r : RegionObservationSummary) (e : ObserverEpisode) : RegionObservationSummary :=
  { r with
    episodeCount := r.episodeCount + 1
    baselineStreams := r.baselineStreams + e.baselineStreamCount }

def countStreams (r : RegionObservationSummary) (e : ObserverEpisode) : RegionObservationSummary :=
  if e.changed then e.streams.foldl (countStream e.observerSession) r else r

def keepTimes (r : RegionObservationSummary) (e : ObserverEpisode) : RegionObservationSummary :=
  { r with
    firstChange := e.firstChange.elim r.firstChange (keepMin r.firstChange)
    lastRestoration := e.restorationEnd.elim r.lastRestoration (keepMax r.lastRestoration) }

/-- One episode of the loop, in the order of its statements. -/
def addEpisode (r : RegionObservationSummary) (e : ObserverEpisode) : RegionObservationSummary :=
  ((((r.countSession e.session e.changed).countEpisode e).countTransitions e).countStreams e).keepTimes e

def addNoBaseline (r : RegionObservationSummary) : RegionObservationSummary :=
  { r with sessionsWithoutBaselineVisibility := r.sessionsWithoutBaselineVisibility + 1 }

def addIncomplete (r : RegionObservationSummary) : RegionObservationSummary :=
  { r with sessionsWithIncompleteCoverage := r.sessionsWithIncompleteCoverage + 1 }

/-- The eligible sessions are the union of the two key sets. -/
def finalize (r : RegionObservationSummary) : RegionObservationSummary :=
  let eligible := (firstSeen (r.changedSessionKeys ++ r.unchangedSessionKeys)).length
  { r with
    eligibleObserverSessions := eligible
    unchangedObserverSessions := eligible - r.changedObserverSessions
    changedPrefixes := r.changedPrefixSet.length }

end RegionObservationSummary

/-- The updates of `by_region`, in the order of the three loops. -/
def regionUpdates (episodes : List ObserverEpisode) (noBaseline incomplete : List String) :
    List (String × (RegionObservationSummary → RegionObservationSummary)) :=
  episodes.map (fun e => (e.observerRegion, fun r => r.addEpisode e)) ++
    noBaseline.map (fun region => (region, RegionObservationSummary.addNoBaseline)) ++
    incomplete.map fun region => (region, RegionObservationSummary.addIncomplete)

def regionalBreadth (episodes : List ObserverEpisode) (noBaseline incomplete : List String) :
    List RegionObservationSummary :=
  (sortBy (compareOn Prod.fst)
    (updateAll emptyRegion (regionUpdates episodes noBaseline incomplete) [])).map (·.2.finalize)

/-! ## Totals -/

structure WorkbenchUnits where
  sessionCount : Nat
  changedSessionCount : Nat
  episodeCount : Nat
  streamCount : Nat
  distinctPrefixCount : Nat
  routeInstanceCount : Nat
  transitionCount : Nat
deriving DecidableEq, Repr

def WorkbenchUnits.fromParts (breadth : List RegionObservationSummary)
    (episodes : List ObserverEpisode) : WorkbenchUnits :=
  { sessionCount := (breadth.map (·.eligibleObserverSessions)).sum
    changedSessionCount := (breadth.map (·.changedObserverSessions)).sum
    episodeCount := episodes.length
    streamCount := (breadth.map (·.changedStreams)).sum
    distinctPrefixCount := (firstSeen (breadth.flatMap (·.changedPrefixSet))).length
    routeInstanceCount := (breadth.map (·.routeInstances)).sum
    transitionCount := (breadth.map (·.transitionCount)).sum }

/-! ## Grouped cues -/

/-- `timestamp.get(a..b)`, of at most the text. -/
def textAt (s : String) (a b : Nat) : Option String := (sliceBytes a b s.toList).map String.ofList

def workbenchTime (timestamp windowStart : String) : String :=
  let ts := trim timestamp
  match textAt ts 0 10, textAt ts 11 19 with
  | some date, some hms =>
    if date = (textAt windowStart 0 10).getD "" then hms ++ " UTC" else date ++ " " ++ hms ++ " UTC"
  | _, _ => ts ++ " UTC"

structure GroupedCue where
  title : String
  text : String
  prefixCount : Nat
  timeRange : String
  sessionCount : Nat
  drillDown : Option Nat
deriving DecidableEq, Repr

def plural (n : Nat) (one many : String) : String := if n = 1 then one else many

section Cues
variable (episodes : List ObserverEpisode)

def changedEpisodes : List ObserverEpisode := episodes.filter (·.changed)

def prefixesOf : List String :=
  firstSeen (episodes.flatMap fun e => e.streams.map (·.pfx))

/-- The distinct texts of the sessions. -/
def sessionTexts : List String := firstSeen (episodes.map (·.observerSession))

/-- The first episode of a session, by its index. -/
def drillDownTo (e : ObserverEpisode) : Option Nat :=
  episodes.findIdx? (·.observerSession = e.observerSession)

/-- `first_change` to `last_change`, as texts. -/
def cueRange : String :=
  let first := episodes.foldl (fun lo e => e.firstChange.elim lo (keepMin lo)) none
  let last := episodes.foldl (fun hi e => e.lastChange.elim hi (keepMax hi)) none
  match first, last with
  | some a, some b =>
    if a = b then workbenchTime a a else workbenchTime a a ++ "–" ++ workbenchTime b a
  | _, _ => "the analysis window"

/-- The number of sessions is an argument of the texts, which name it. -/
def advertisementText (asns : List UInt32) (range : String) (prefixes sessions : Nat) : String :=
  let asnText := if asns = [] then ""
    else " toward " ++ String.intercalate ", " (asns.map fun a => "AS" ++ toString a)
  "Check " ++ toString prefixes ++ " " ++ plural prefixes "prefix" "prefixes" ++ asnText ++ " during " ++
    range ++ " at " ++ toString sessions ++ " affected observer session" ++ plural sessions "" "s" ++ "."

def alternateText (range : String) (prefixes sessions : Nat) : String :=
  "Compare " ++ toString prefixes ++ " " ++ plural prefixes "prefix" "prefixes" ++
    " whose paths changed at " ++ toString sessions ++ " observer session" ++ plural sessions "" "s" ++
    " during " ++ range ++ "."

def restorationText (streams prefixes sessions : Nat) : String :=
  "Verify whether " ++ toString streams ++ " restored observer-prefix stream" ++ plural streams "" "s" ++
    " covering " ++ toString prefixes ++ " distinct " ++ plural prefixes "prefix" "prefixes" ++
    " returned to the expected baseline path, not merely to visibility (at " ++ toString sessions ++
    " session" ++ plural sessions "" "s" ++ ")."

def disagreementText (direct indirect : Nat) : String :=
  "Compare the " ++ toString direct ++ " direct observer session" ++ plural direct "" "s" ++ " with " ++
    toString indirect ++ " indirect session" ++ plural indirect "" "s" ++ "."

/-- Changed to another path, off the plane or back to it. -/
def ObserverEpisode.alternate (e : ObserverEpisode) : Bool :=
  e.effectKind = .pathReplacement ∨ e.effectKind = .namedPlaneDeparture ∨ e.effectKind = .namedPlaneReturn

/-! Each cue is given the numbers of sessions that it names. -/

def advertisementCue (planeLabel : String) (planeAsns : List UInt32) (sessions : Nat) : GroupedCue :=
  let changed := changedEpisodes episodes
  { title := "Advertisements to " ++ planeLabel
    text := advertisementText planeAsns (cueRange changed) (prefixesOf changed).length sessions
    prefixCount := (prefixesOf changed).length
    timeRange := cueRange changed
    sessionCount := sessions
    drillDown := changed.head?.bind (drillDownTo episodes) }

def alternateEpisodes : List ObserverEpisode := (changedEpisodes episodes).filter (·.alternate)

def alternateCue (sessions : Nat) : Option GroupedCue :=
  if alternateEpisodes episodes = [] then none
  else some
    { title := "Alternate path selection"
      text := alternateText (cueRange (changedEpisodes episodes))
        (prefixesOf (alternateEpisodes episodes)).length sessions
      prefixCount := (prefixesOf (alternateEpisodes episodes)).length
      timeRange := cueRange (changedEpisodes episodes)
      sessionCount := sessions
      drillDown := (alternateEpisodes episodes).head?.bind (drillDownTo episodes) }

def restoredEpisodes : List ObserverEpisode :=
  (changedEpisodes episodes).filter (0 < ·.restoredStreamCount)

def restorationCue (sessions : Nat) : Option GroupedCue :=
  if restoredEpisodes episodes = [] then none
  else some
    { title := "Restoration quality"
      text := restorationText ((restoredEpisodes episodes).map (·.restoredStreamCount)).sum
        (prefixesOf (restoredEpisodes episodes)).length sessions
      prefixCount := (prefixesOf (restoredEpisodes episodes)).length
      timeRange := cueRange (changedEpisodes episodes)
      sessionCount := sessions
      drillDown := (restoredEpisodes episodes).head?.bind (drillDownTo episodes) }

def relatedEpisodes (kind : RelationshipKind) : List ObserverEpisode :=
  (changedEpisodes episodes).filter (·.relationship = kind)

def disagreementCue (direct indirect sessions : Nat) : Option GroupedCue :=
  if relatedEpisodes episodes .direct = [] ∨ relatedEpisodes episodes .indirect = [] then none
  else some
    { title := "Observer disagreement"
      text := disagreementText direct indirect
      prefixCount := 0
      timeRange := cueRange (changedEpisodes episodes)
      sessionCount := sessions
      drillDown := none }

/-- The texts of the sessions are counted for two of the groups, the episodes for the others. -/
def buildGroupedCues (planeLabel : String) (planeAsns : List UInt32) : List GroupedCue :=
  if changedEpisodes episodes = [] then []
  else (advertisementCue episodes planeLabel planeAsns (sessionTexts (changedEpisodes episodes)).length ::
    (alternateCue episodes (sessionTexts (alternateEpisodes episodes)).length).toList ++
    (restorationCue episodes (restoredEpisodes episodes).length).toList ++
    (disagreementCue episodes (relatedEpisodes episodes .direct).length
      (relatedEpisodes episodes .indirect).length (changedEpisodes episodes).length).toList).take 5

end Cues

/-! ## What a region has counted -/

/-- The member streams of some episodes, by the text of the session. -/
def streamTexts (episodes : List ObserverEpisode) : List (String × String) :=
  episodes.flatMap fun e => e.streams.map fun s => (e.observerSession, s.pfx)

namespace RegionObservationSummary

section Streams
variable (session : String) (r : RegionObservationSummary) (s : EpisodeStream)

@[simp] theorem countStream_changedStreamKeys :
    (r.countStream session s).changedStreamKeys = keepNew r.changedStreamKeys (session, s.pfx) := by
  unfold countStream keepNew
  by_cases h : (session, s.pfx) ∈ r.changedStreamKeys <;> simp [h]

@[simp] theorem countStream_changedPrefixSet :
    (r.countStream session s).changedPrefixSet = keepNew r.changedPrefixSet s.pfx := by
  unfold countStream
  split <;> rfl

/-- Streams are counted as their keys are inserted. -/
theorem countStream_changedStreams (h : r.changedStreams = r.changedStreamKeys.length) :
    (r.countStream session s).changedStreams = (r.countStream session s).changedStreamKeys.length := by
  unfold countStream
  split
  · exact h
  · simp [h]

end Streams

/-! Each statement leaves alone what it does not count. -/

section Frames
variable {β : Type} (p : RegionObservationSummary → β) (r : RegionObservationSummary)
  (e : ObserverEpisode)

theorem countSession_frame (key : SessionKey) (changed : Bool) (hp : ∀ r a b c d,
    p { r with changedObserverSessions := a, changedSessionKeys := b,
               unchangedObserverSessions := c, unchangedSessionKeys := d } = p r) :
    p (r.countSession key changed) = p r := by
  unfold countSession
  split
  · split
    · rfl
    · exact hp r _ _ r.unchangedObserverSessions r.unchangedSessionKeys
  · split
    · rfl
    · exact hp r r.changedObserverSessions r.changedSessionKeys _ _

theorem countTransitions_frame
    (hp : ∀ r a b, p { r with transitionSessions := a, transitionCount := b } = p r) :
    p (r.countTransitions e) = p r := by
  unfold countTransitions
  split
  · rfl
  · exact hp r _ _

theorem countStreams_frame (hp : ∀ r a b c d,
    p { r with changedStreams := a, routeInstances := b, changedStreamKeys := c,
               changedPrefixSet := d } = p r) :
    p (r.countStreams e) = p r := by
  have hstream : ∀ r s, p (countStream e.observerSession r s) = p r := by
    intro r s
    unfold countStream
    split
    · exact hp r r.changedStreams r.routeInstances r.changedStreamKeys _
    · exact hp r _ _ _ _
  have hfold : ∀ (ss : List EpisodeStream) (r : RegionObservationSummary),
      p (ss.foldl (countStream e.observerSession) r) = p r := by
    intro ss
    induction ss with
    | nil => exact fun r => rfl
    | cons s ss ih => exact fun r => (ih _).trans (hstream r s)
  unfold countStreams
  split
  · exact hfold _ r
  · rfl

end Frames

/-- What the episodes read so far have left in the row of their region. -/
structure Tallied (eps : List ObserverEpisode) (r : RegionObservationSummary) : Prop where
  changedKeys : r.changedSessionKeys = firstSeen ((changedEpisodes eps).map (·.session))
  changedSessions : r.changedObserverSessions = r.changedSessionKeys.length
  unchangedKeys : r.unchangedSessionKeys = firstSeen ((eps.filter (!·.changed)).map (·.session))
  baseline : r.baselineStreams = (eps.map (·.baselineStreamCount)).sum
  transitionKeys : r.transitionSessions = (keepFirst ObserverEpisode.session eps).map (·.session)
  transitions : r.transitionCount =
    ((keepFirst ObserverEpisode.session eps).map (·.transitionCount)).sum
  streamKeys : r.changedStreamKeys = firstSeen (streamTexts (changedEpisodes eps))
  streams : r.changedStreams = r.changedStreamKeys.length
  prefixes : r.changedPrefixSet = prefixesOf (changedEpisodes eps)

theorem Tallied.nil (region : String) : Tallied [] (emptyRegion region) :=
  ⟨rfl, rfl, rfl, rfl, rfl, rfl, rfl, rfl, rfl⟩

/-- The session fields after an episode. -/
theorem addEpisode_sessions {β : Type} (p : RegionObservationSummary → β)
    (hp : ∀ r : RegionObservationSummary, ∀ a b c d e f g h i j,
      p { r with episodeCount := a, baselineStreams := b, transitionSessions := c, transitionCount := d,
                 changedStreams := e, routeInstances := f, changedStreamKeys := g, changedPrefixSet := h,
                 firstChange := i, lastRestoration := j } = p r)
    (r : RegionObservationSummary) (e : ObserverEpisode) :
    p (r.addEpisode e) = p (r.countSession e.session e.changed) := by
  have htimes : ∀ r : RegionObservationSummary, p (r.keepTimes e) = p r :=
    fun r => hp r _ _ _ _ _ _ _ _ _ _
  have hcount : ∀ r : RegionObservationSummary, p (r.countEpisode e) = p r :=
    fun r => hp r _ _ _ _ _ _ _ _ _ _
  rw [addEpisode, htimes, countStreams_frame p, countTransitions_frame p, hcount]
  · exact fun r a b => hp r _ _ _ _ _ _ _ _ _ _
  · exact fun r a b c d => hp r _ _ _ _ _ _ _ _ _ _

/-- The row before the streams of an episode are counted has the streams it had. -/
theorem beforeStreams {β : Type} (p : RegionObservationSummary → β)
    (hp : ∀ r : RegionObservationSummary, ∀ a b c d e f g h,
      p { r with changedObserverSessions := a, changedSessionKeys := b, unchangedObserverSessions := c,
                 unchangedSessionKeys := d, episodeCount := e, baselineStreams := f,
                 transitionSessions := g, transitionCount := h } = p r)
    (r : RegionObservationSummary) (e : ObserverEpisode) :
    p (((r.countSession e.session e.changed).countEpisode e).countTransitions e) = p r := by
  have hcount : ∀ r : RegionObservationSummary, p (r.countEpisode e) = p r :=
    fun r => hp r _ _ _ _ _ _ _ _
  rw [countTransitions_frame p, hcount, countSession_frame p]
  · exact fun r a b c d => hp r _ _ _ _ _ _ _ _
  · exact fun r a b => hp r _ _ _ _ _ _ _ _

theorem foldl_countStream_keys (session : String) (ss : List EpisodeStream)
    (r : RegionObservationSummary) :
    (ss.foldl (countStream session) r).changedStreamKeys =
        (ss.map fun s => (session, s.pfx)).foldl keepNew r.changedStreamKeys ∧
      (ss.foldl (countStream session) r).changedPrefixSet =
        (ss.map (·.pfx)).foldl keepNew r.changedPrefixSet := by
  induction ss generalizing r with
  | nil => exact ⟨rfl, rfl⟩
  | cons s ss ih =>
    obtain ⟨hkeys, hprefixes⟩ := ih (r.countStream session s)
    rw [countStream_changedStreamKeys] at hkeys
    rw [countStream_changedPrefixSet] at hprefixes
    exact ⟨hkeys, hprefixes⟩

theorem foldl_countStream_streams (session : String) (ss : List EpisodeStream)
    (r : RegionObservationSummary) (h : r.changedStreams = r.changedStreamKeys.length) :
    (ss.foldl (countStream session) r).changedStreams =
      (ss.foldl (countStream session) r).changedStreamKeys.length := by
  induction ss generalizing r with
  | nil => exact h
  | cons s ss ih => exact ih _ (countStream_changedStreams session r s h)

namespace Tallied
variable {eps : List ObserverEpisode} {r : RegionObservationSummary}

theorem countSession_keys (h : Tallied eps r) (e : ObserverEpisode) :
    (r.countSession e.session e.changed).changedSessionKeys =
        firstSeen ((changedEpisodes (eps ++ [e])).map (·.session)) ∧
      (r.countSession e.session e.changed).changedObserverSessions =
        (r.countSession e.session e.changed).changedSessionKeys.length ∧
      (r.countSession e.session e.changed).unchangedSessionKeys =
        firstSeen (((eps ++ [e]).filter (!·.changed)).map (·.session)) := by
  have hsessions := h.changedSessions
  have hkeys := h.changedKeys
  have hunchanged := h.unchangedKeys
  unfold changedEpisodes at hkeys ⊢
  rw [List.filter_append, List.filter_append]
  by_cases hc : e.changed = true
  · have hin : [e].filter (·.changed) = [e] := by simp [hc]
    have hout : [e].filter (!·.changed) = [] := by simp [hc]
    rw [hin, hout, List.append_nil, List.map_append, List.map_singleton, firstSeen_concat, ← hkeys,
      keepNew, countSession, if_pos hc]
    split
    · exact ⟨rfl, hsessions, hunchanged⟩
    · refine ⟨rfl, ?_, hunchanged⟩
      rw [List.length_append, List.length_singleton, hsessions]
  · have hin : [e].filter (·.changed) = [] := by simp [hc]
    have hout : [e].filter (!·.changed) = [e] := by simp [hc]
    rw [hin, hout, List.append_nil, List.map_append, List.map_singleton, firstSeen_concat, ← hkeys,
      ← hunchanged, keepNew, countSession, if_neg hc]
    split
    · exact ⟨rfl, hsessions, rfl⟩
    · exact ⟨rfl, hsessions, rfl⟩

theorem countTransitions_keys (h : Tallied eps r) (e : ObserverEpisode) :
    (r.addEpisode e).transitionSessions =
        (keepFirst ObserverEpisode.session (eps ++ [e])).map (·.session) ∧
      (r.addEpisode e).transitionCount =
        ((keepFirst ObserverEpisode.session (eps ++ [e])).map (·.transitionCount)).sum := by
  let r' := (r.countSession e.session e.changed).countEpisode e
  have hkeys : r'.transitionSessions = r.transitionSessions :=
    countSession_frame (·.transitionSessions) r _ _ fun _ _ _ _ _ => rfl
  have hcount : r'.transitionCount = r.transitionCount :=
    countSession_frame (·.transitionCount) r _ _ fun _ _ _ _ _ => rfl
  have hkeys' : (r.addEpisode e).transitionSessions = (r'.countTransitions e).transitionSessions :=
    countStreams_frame (·.transitionSessions) _ e fun _ _ _ _ _ => rfl
  have hcount' : (r.addEpisode e).transitionCount = (r'.countTransitions e).transitionCount :=
    countStreams_frame (·.transitionCount) _ e fun _ _ _ _ _ => rfl
  rw [hkeys', hcount', countTransitions, hkeys, hcount, h.transitionKeys, h.transitions, keepFirst_concat,
    insertUnique_fst]
  split
  · exact ⟨hkeys.trans h.transitionKeys, hcount.trans h.transitions⟩
  · simp

theorem countStreams_keys (h : Tallied eps r) (e : ObserverEpisode) :
    (r.addEpisode e).changedStreamKeys = firstSeen (streamTexts (changedEpisodes (eps ++ [e]))) ∧
      (r.addEpisode e).changedStreams = (r.addEpisode e).changedStreamKeys.length ∧
      (r.addEpisode e).changedPrefixSet = prefixesOf (changedEpisodes (eps ++ [e])) := by
  let r' := ((r.countSession e.session e.changed).countEpisode e).countTransitions e
  have hkeys : r'.changedStreamKeys = r.changedStreamKeys :=
    beforeStreams (·.changedStreamKeys) (fun _ _ _ _ _ _ _ _ _ => rfl) r e
  have hstreams : r'.changedStreams = r.changedStreams :=
    beforeStreams (·.changedStreams) (fun _ _ _ _ _ _ _ _ _ => rfl) r e
  have hprefixes : r'.changedPrefixSet = r.changedPrefixSet :=
    beforeStreams (·.changedPrefixSet) (fun _ _ _ _ _ _ _ _ _ => rfl) r e
  have hlength : r'.changedStreams = r'.changedStreamKeys.length := by
    rw [hkeys, hstreams, h.streams]
  have hafter : (r.addEpisode e).changedStreamKeys = (r'.countStreams e).changedStreamKeys ∧
      (r.addEpisode e).changedStreams = (r'.countStreams e).changedStreams ∧
      (r.addEpisode e).changedPrefixSet = (r'.countStreams e).changedPrefixSet := ⟨rfl, rfl, rfl⟩
  rw [hafter.1, hafter.2.1, hafter.2.2, countStreams, changedEpisodes, List.filter_append]
  by_cases hc : e.changed = true
  · obtain ⟨hfold, hfoldp⟩ := foldl_countStream_keys e.observerSession e.streams r'
    rw [if_pos hc, List.filter_cons_of_pos hc, List.filter_nil]
    refine ⟨?_, foldl_countStream_streams _ _ _ hlength, ?_⟩
    · rw [hfold, hkeys, h.streamKeys, streamTexts, streamTexts, List.flatMap_append, firstSeen, firstSeen,
        List.foldl_append, List.flatMap_singleton]
      rfl
    · rw [hfoldp, hprefixes, h.prefixes, prefixesOf, prefixesOf, List.flatMap_append, firstSeen, firstSeen,
        List.foldl_append, List.flatMap_singleton]
      rfl
  · rw [if_neg hc, List.filter_cons_of_neg hc, List.filter_nil, List.append_nil]
    exact ⟨hkeys.trans h.streamKeys, hlength, hprefixes.trans h.prefixes⟩

theorem add (h : Tallied eps r) (e : ObserverEpisode) : Tallied (eps ++ [e]) (r.addEpisode e) := by
  obtain ⟨hchanged, hsessions, hunchanged⟩ := h.countSession_keys e
  obtain ⟨htkeys, htcount⟩ := h.countTransitions_keys e
  obtain ⟨hskeys, hstreams, hprefixes⟩ := h.countStreams_keys e
  have hc : (r.addEpisode e).changedSessionKeys = (r.countSession e.session e.changed).changedSessionKeys :=
    addEpisode_sessions (·.changedSessionKeys) (fun _ _ _ _ _ _ _ _ _ _ _ => rfl) r e
  have hn : (r.addEpisode e).changedObserverSessions =
      (r.countSession e.session e.changed).changedObserverSessions :=
    addEpisode_sessions (·.changedObserverSessions) (fun _ _ _ _ _ _ _ _ _ _ _ => rfl) r e
  have hu : (r.addEpisode e).unchangedSessionKeys =
      (r.countSession e.session e.changed).unchangedSessionKeys :=
    addEpisode_sessions (·.unchangedSessionKeys) (fun _ _ _ _ _ _ _ _ _ _ _ => rfl) r e
  have hbaseline : (r.addEpisode e).baselineStreams = r.baselineStreams + e.baselineStreamCount := by
    have hstreams : (r.addEpisode e).baselineStreams =
        (((r.countSession e.session e.changed).countEpisode e).countTransitions e).baselineStreams :=
      countStreams_frame (·.baselineStreams) _ e fun _ _ _ _ _ => rfl
    rw [hstreams, countTransitions_frame (·.baselineStreams) _ e fun _ _ _ => rfl]
    exact congrArg (· + e.baselineStreamCount)
      (countSession_frame (·.baselineStreams) r _ _ fun _ _ _ _ _ => rfl)
  refine ⟨hc.trans hchanged, ?_, hu.trans hunchanged, ?_, htkeys, htcount, hskeys, hstreams, hprefixes⟩
  · rw [hn, hc, hsessions]
  · rw [hbaseline, h.baseline, List.map_append, List.sum_append]
    rfl

end Tallied

/-- **A region has counted its episodes.** -/
theorem tallied (region : String) (eps : List ObserverEpisode) :
    Tallied eps (eps.foldl addEpisode (emptyRegion region)) := by
  induction eps using List.reverseRecOn with
  | nil => exact Tallied.nil region
  | append_singleton eps e ih =>
    rw [List.foldl_concat]
    exact ih.add e

end RegionObservationSummary

/-! ## The regions -/

def regionNames (episodes : List ObserverEpisode) (noBaseline incomplete : List String) : List String :=
  sortBy compare (firstSeen ((regionUpdates episodes noBaseline incomplete).map Prod.fst))

def regionState (episodes : List ObserverEpisode) (noBaseline incomplete : List String)
    (region : String) : RegionObservationSummary :=
  applyAll ((regionUpdates episodes noBaseline incomplete).filter (·.1 = region)) (emptyRegion region)

/-- The episodes of a region. -/
def inRegion (region : String) (episodes : List ObserverEpisode) : List ObserverEpisode :=
  episodes.filter (·.observerRegion = region)

section Regions
variable (episodes : List ObserverEpisode) (noBaseline incomplete : List String)

theorem regionalBreadth_eq : regionalBreadth episodes noBaseline incomplete =
    (regionNames episodes noBaseline incomplete).map fun region =>
      (regionState episodes noBaseline incomplete region).finalize := by
  rw [regionalBreadth, updateAll_nil, sortBy_map, List.map_map]
  rfl

theorem regionNames_nodup : (regionNames episodes noBaseline incomplete).Nodup :=
  (sortBy_perm _ _).nodup_iff.2 (firstSeen_nodup _)

theorem mem_regionNames {region : String} : region ∈ regionNames episodes noBaseline incomplete ↔
    region ∈ (regionUpdates episodes noBaseline incomplete).map Prod.fst := by
  rw [regionNames, mem_sortBy, mem_firstSeen]

theorem region_mem_regionNames {e : ObserverEpisode} (he : e ∈ episodes) :
    e.observerRegion ∈ regionNames episodes noBaseline incomplete := by
  rw [mem_regionNames, regionUpdates, List.append_assoc, List.map_append, List.map_map]
  exact List.mem_append_left _ (List.mem_map.2 ⟨e, he, rfl⟩)

theorem regionNames_perm {episodes' : List ObserverEpisode} (h : episodes.Perm episodes') :
    regionNames episodes' noBaseline incomplete = regionNames episodes noBaseline incomplete := by
  have hupdates : (regionUpdates episodes' noBaseline incomplete).Perm
      (regionUpdates episodes noBaseline incomplete) :=
    ((h.symm.map _).append_right _).append_right _
  exact sortBy_eq_iff_perm.2 (firstSeen_perm (hupdates.map _))

variable {episodes noBaseline incomplete}

/-- The sessions without evidence leave alone what the episodes have counted. -/
theorem RegionObservationSummary.Tallied.coverage {eps : List ObserverEpisode}
    {r : RegionObservationSummary} (h : r.Tallied eps) (a b : Nat) :
    RegionObservationSummary.Tallied eps { r with
      sessionsWithoutBaselineVisibility := a, sessionsWithIncompleteCoverage := b } :=
  ⟨h.changedKeys, h.changedSessions, h.unchangedKeys, h.baseline, h.transitionKeys, h.transitions,
    h.streamKeys, h.streams, h.prefixes⟩

theorem addEpisode_region (r : RegionObservationSummary) (e : ObserverEpisode) :
    (r.addEpisode e).region = r.region := by
  refine (RegionObservationSummary.addEpisode_sessions (·.region)
    (fun _ _ _ _ _ _ _ _ _ _ _ => rfl) r e).trans ?_
  exact RegionObservationSummary.countSession_frame (·.region) r _ _ fun _ _ _ _ _ => rfl

theorem foldl_addEpisode_region (eps : List ObserverEpisode) (r : RegionObservationSummary) :
    (eps.foldl RegionObservationSummary.addEpisode r).region = r.region := by
  induction eps generalizing r with
  | nil => rfl
  | cons e eps ih => rw [List.foldl_cons, ih, addEpisode_region]

variable (episodes noBaseline incomplete) in
/-- **The row of a region has counted the episodes of the region.** -/
theorem regionState_tallied (region : String) :
    (regionState episodes noBaseline incomplete region).Tallied (inRegion region episodes) ∧
      (regionState episodes noBaseline incomplete region).region = region := by
  have hepisodes : ((episodes.map fun e => (e.observerRegion, fun r : RegionObservationSummary =>
        r.addEpisode e)).filter (·.1 = region)) =
      (inRegion region episodes).map fun e => (e.observerRegion, fun r => r.addEpisode e) :=
    List.filter_map
  have hcoverage : ∀ (us : List (String × (RegionObservationSummary → RegionObservationSummary)))
      (r : RegionObservationSummary), (∀ u ∈ us, ∀ r : RegionObservationSummary, ∃ a b, u.2 r =
        { r with sessionsWithoutBaselineVisibility := a, sessionsWithIncompleteCoverage := b }) →
      r.Tallied (inRegion region episodes) ∧ r.region = region →
      (applyAll us r).Tallied (inRegion region episodes) ∧ (applyAll us r).region = region := by
    intro us
    induction us with
    | nil => exact fun r _ hr => hr
    | cons u us ih =>
      intro r hus hr
      obtain ⟨a, b, hab⟩ := hus u List.mem_cons_self r
      refine ih _ (fun u' hu' => hus u' (List.mem_cons_of_mem u hu')) ?_
      dsimp only
      rw [hab]
      exact ⟨hr.1.coverage a b, hr.2⟩
  rw [regionState, regionUpdates, List.append_assoc, List.filter_append, applyAll, List.foldl_append,
    hepisodes, List.foldl_map]
  refine hcoverage _ _ (fun u hu r => ?_)
    ⟨RegionObservationSummary.tallied region _, foldl_addEpisode_region _ _⟩
  rcases List.mem_append.1 (List.mem_filter.1 hu).1 with hu | hu
  · obtain ⟨_, -, rfl⟩ := List.mem_map.1 hu
    exact ⟨_, r.sessionsWithIncompleteCoverage, rfl⟩
  · obtain ⟨_, -, rfl⟩ := List.mem_map.1 hu
    exact ⟨r.sessionsWithoutBaselineVisibility, _, rfl⟩

end Regions

/-! ## Cardinalities -/

section Sets
variable (episodes : List ObserverEpisode)

def sessionSet : Finset SessionKey := (episodes.map (·.session)).toFinset

/-- The member streams, by session and prefix. -/
def memberStreams : List (SessionKey × String) :=
  episodes.flatMap fun e => e.streams.map fun s => (e.session, s.pfx)

def streamSet : Finset (SessionKey × String) := (memberStreams episodes).toFinset

def prefixSet : Finset String := (episodes.flatMap fun e => e.streams.map (·.pfx)).toFinset

end Sets

/-- What `build_episodes` makes of every episode: the baseline streams are its member streams, and the
session is spelled in full. -/
structure ObserverEpisode.Built (e : ObserverEpisode) : Prop where
  baseline : e.baselineStreamCount = e.streams.length
  spelled : ∃ family collector peerIp,
    e.observerSession = family ++ "/" ++ collector ++ " peer " ++ peerIp

/-! ## The spelling of a session -/

/-- The first separator is that of the text or one before it. -/
theorem splitOnce_append (sep u v : List Char) :
    ∃ a w, splitOnce sep (u ++ sep ++ v) = some (a, w ++ v) ∧ u ++ sep ++ v = a ++ sep ++ (w ++ v) := by
  induction u with
  | nil =>
    cases sep with
    | nil => cases v <;> exact ⟨[], [], by simp [splitOnce], rfl⟩
    | cons c sep =>
      refine ⟨[], [], ?_, rfl⟩
      simp only [List.nil_append, List.cons_append, splitOnce, List.length_cons, List.drop_succ_cons]
      rw [← List.cons_append, if_pos (List.isPrefixOf_iff_prefix.2 (List.prefix_append _ _)), List.drop_left]
  | cons c u ih =>
    obtain ⟨a, w, hsplit, heq⟩ := ih
    simp only [List.cons_append, splitOnce]
    split
    · next hpre =>
      obtain ⟨t, ht⟩ := List.isPrefixOf_iff_prefix.1 hpre
      have hle : sep.length ≤ (c :: (u ++ sep)).length := by simp; omega
      refine ⟨[], (c :: (u ++ sep)).drop sep.length, ?_, ?_⟩
      · rw [← List.drop_append_of_le_length hle]
        rfl
      · rw [← List.drop_append_of_le_length hle, List.nil_append]
        have hdrop : (c :: (u ++ sep) ++ v).drop sep.length = t := by
          rw [List.cons_append, ← ht, List.drop_left]
        rw [hdrop, ht]
    · refine ⟨c :: a, w, ?_, ?_⟩
      · rw [hsplit]
        rfl
      · rw [heq]
        rfl

/-- A session that is spelled in full is read back from its key. -/
theorem sessionKeyOf_spelled {s : String} (h : ∃ family collector peerIp,
    s = family ++ "/" ++ collector ++ " peer " ++ peerIp) :
    s = (sessionKeyOf s).sourceFamily ++ "/" ++ (sessionKeyOf s).collector ++ " peer " ++
      (sessionKeyOf s).peerIp := by
  obtain ⟨family, collector, peerIp, hs⟩ := h
  have hchars : s.toList = family.toList ++ "/".toList ++ (collector.toList ++ " peer ".toList ++
      peerIp.toList) := by
    rw [hs]
    simp only [String.toList_append, List.append_assoc]
  obtain ⟨a, w, hsplit, heq⟩ := splitOnce_append "/".toList family.toList
    (collector.toList ++ " peer ".toList ++ peerIp.toList)
  obtain ⟨b, v, hsplit', heq'⟩ := splitOnce_append " peer ".toList (w ++ collector.toList)
    peerIp.toList
  rw [← hchars] at hsplit heq
  simp only [List.append_assoc] at hsplit heq hsplit' heq'
  have hkey : sessionKeyOf s = ⟨String.ofList a, String.ofList b, String.ofList (v ++ peerIp.toList),
      addressFamilyOf (String.ofList (v ++ peerIp.toList))⟩ := by
    simp only [sessionKeyOf, hsplit, hsplit', Option.getD_some]
  refine String.toList_injective ?_
  rw [hkey, heq, heq']
  simp only [String.toList_append, String.toList_ofList, List.append_assoc]

theorem ObserverEpisode.Built.text_eq {e e' : ObserverEpisode} (h : e.Built) (h' : e'.Built)
    (hsession : e.session = e'.session) : e.observerSession = e'.observerSession := by
  rw [sessionKeyOf_spelled h.spelled, sessionKeyOf_spelled h'.spelled]
  have hkey : sessionKeyOf e.observerSession = sessionKeyOf e'.observerSession := hsession
  rw [hkey]

/-! ## Counts of built episodes -/

section Counts
variable {episodes : List ObserverEpisode}

theorem sessionSet_eq_flatMap (episodes : List ObserverEpisode) :
    sessionSet episodes = (episodes.flatMap fun e => [e.session]).toFinset := by
  rw [sessionSet, List.map_eq_flatMap]

theorem length_sessionKeys (episodes : List ObserverEpisode) :
    (firstSeen (episodes.map (·.session))).length = (sessionSet episodes).card := length_firstSeen _

theorem length_prefixesOf (episodes : List ObserverEpisode) :
    (prefixesOf episodes).length = (prefixSet episodes).card := length_firstSeen _

/-- Texts of full sessions are as many as the sessions. -/
theorem length_sessionTexts (h : ∀ e ∈ episodes, e.Built) :
    (sessionTexts episodes).length = (sessionSet episodes).card := by
  have himage : sessionSet episodes = (episodes.map (·.observerSession)).toFinset.image sessionKeyOf := by
    rw [sessionSet, ← toFinset_map, List.map_map]
    rfl
  rw [sessionTexts, length_firstSeen, himage, Finset.card_image_of_injOn]
  intro s hs s' hs' hkey
  obtain ⟨e, he, rfl⟩ := List.mem_map.1 (List.mem_toFinset.1 (Finset.mem_coe.1 hs))
  obtain ⟨e', he', rfl⟩ := List.mem_map.1 (List.mem_toFinset.1 (Finset.mem_coe.1 hs'))
  exact (h e he).text_eq (h e' he') hkey

theorem length_streamTexts (h : ∀ e ∈ episodes, e.Built) :
    (firstSeen (streamTexts episodes)).length = (streamSet episodes).card := by
  have hmap : memberStreams episodes = (streamTexts episodes).map fun p => (sessionKeyOf p.1, p.2) := by
    rw [memberStreams, streamTexts, List.map_flatMap]
    simp only [List.map_map]
    rfl
  have himage : streamSet episodes =
      (streamTexts episodes).toFinset.image fun p => (sessionKeyOf p.1, p.2) := by
    rw [streamSet, hmap, toFinset_map]
  rw [length_firstSeen, himage, Finset.card_image_of_injOn]
  have hmem : ∀ {p}, p ∈ (streamTexts episodes).toFinset → ∃ e ∈ episodes, e.observerSession = p.1 := by
    intro p hp
    obtain ⟨e, he, hs⟩ := List.mem_flatMap.1 (List.mem_toFinset.1 hp)
    obtain ⟨s, -, rfl⟩ := List.mem_map.1 hs
    exact ⟨e, he, rfl⟩
  rintro ⟨s, p⟩ hs ⟨s', p'⟩ hs' hkey
  obtain ⟨e, he, rfl⟩ := hmem (Finset.mem_coe.1 hs)
  obtain ⟨e', he', rfl⟩ := hmem (Finset.mem_coe.1 hs')
  obtain ⟨hkey, rfl⟩ := Prod.mk.inj hkey
  exact Prod.ext ((h e he).text_eq (h e' he') hkey) rfl

theorem baseline_eq_length (h : ∀ e ∈ episodes, e.Built) :
    (episodes.map (·.baselineStreamCount)).sum = (memberStreams episodes).length := by
  rw [memberStreams, List.length_flatMap]
  refine congrArg List.sum (List.map_congr_left fun e he => ?_)
  rw [(h e he).baseline, List.length_map]

theorem streamSet_changed_subset (episodes : List ObserverEpisode) :
    streamSet (changedEpisodes episodes) ⊆ streamSet episodes := by
  intro x hx
  obtain ⟨e, he, hs⟩ := List.mem_flatMap.1 (List.mem_toFinset.1 hx)
  exact List.mem_toFinset.2 (List.mem_flatMap.2 ⟨e, (List.mem_filter.1 he).1, hs⟩)

end Counts

/-! ## What is promised of a region -/

structure RegionUnits (episodes : List ObserverEpisode) (r : RegionObservationSummary) : Prop where
  eligible : r.eligibleObserverSessions = (sessionSet episodes).card
  changed : r.changedObserverSessions = (sessionSet (changedEpisodes episodes)).card
  unchanged : r.unchangedObserverSessions =
    (sessionSet episodes \ sessionSet (changedEpisodes episodes)).card
  changedStreams : r.changedStreams = (streamSet (changedEpisodes episodes)).card
  baselineStreams : r.baselineStreams = (streamSet episodes).card
  changed_le_baseline : r.changedStreams ≤ r.baselineStreams
  prefixes : r.changedPrefixes = (prefixSet (changedEpisodes episodes)).card

section Region
variable {episodes : List ObserverEpisode} {r : RegionObservationSummary}

theorem sessionSet_changed_subset (episodes : List ObserverEpisode) :
    sessionSet (changedEpisodes episodes) ⊆ sessionSet episodes := by
  intro k hk
  obtain ⟨e, he, rfl⟩ := List.mem_map.1 (List.mem_toFinset.1 hk)
  exact List.mem_toFinset.2 (List.mem_map.2 ⟨e, (List.mem_filter.1 he).1, rfl⟩)

/-- The union of the two key sets is the sessions of the region. -/
theorem RegionObservationSummary.Tallied.eligible (h : r.Tallied episodes) :
    (firstSeen (r.changedSessionKeys ++ r.unchangedSessionKeys)).length = (sessionSet episodes).card := by
  rw [length_firstSeen]
  congr 1
  ext k
  rw [h.changedKeys, h.unchangedKeys, sessionSet, List.mem_toFinset, List.mem_append, mem_firstSeen,
    mem_firstSeen, List.mem_toFinset]
  simp only [changedEpisodes, List.mem_map, List.mem_filter]
  constructor
  · rintro (⟨e, ⟨he, -⟩, hk⟩ | ⟨e, ⟨he, -⟩, hk⟩)
    · exact ⟨e, he, hk⟩
    · exact ⟨e, he, hk⟩
  · rintro ⟨e, he, hk⟩
    by_cases hc : e.changed = true
    · exact Or.inl ⟨e, ⟨he, hc⟩, hk⟩
    · exact Or.inr ⟨e, ⟨he, by simp [hc]⟩, hk⟩

/-- **All counts of a region are cardinalities but for its baseline streams, which are when no session
and prefix are members twice.** -/
theorem regionUnits_iff (h : r.Tallied episodes) (hbuilt : ∀ e ∈ episodes, e.Built) :
    RegionUnits episodes r.finalize ↔ (memberStreams episodes).Nodup := by
  have hchangedBuilt : ∀ e ∈ changedEpisodes episodes, e.Built :=
    fun e he => hbuilt e (List.mem_filter.1 he).1
  have hchanged : r.changedObserverSessions = (sessionSet (changedEpisodes episodes)).card := by
    rw [h.changedSessions, h.changedKeys, length_sessionKeys]
  have hstreams : r.changedStreams = (streamSet (changedEpisodes episodes)).card := by
    rw [h.streams, h.streamKeys, length_streamTexts hchangedBuilt]
  have hbaseline : r.baselineStreams = (memberStreams episodes).length := by
    rw [h.baseline, baseline_eq_length hbuilt]
  constructor
  · intro hunits
    exact length_eq_card_iff.1 (hbaseline.symm.trans hunits.baselineStreams)
  · intro hnodup
    have hcard : r.baselineStreams = (streamSet episodes).card :=
      hbaseline.trans (length_eq_card_iff.2 hnodup)
    refine ⟨h.eligible, hchanged, ?_, hstreams, hcard, ?_, ?_⟩
    · rw [Finset.card_sdiff_of_subset (sessionSet_changed_subset episodes), ← h.eligible, ← hchanged]
      rfl
    · have hle := Finset.card_le_card (streamSet_changed_subset episodes)
      rw [← hstreams, ← hcard] at hle
      exact hle
    · have hprefixes : r.changedPrefixSet.length = (prefixSet (changedEpisodes episodes)).card := by
        rw [h.prefixes, length_prefixesOf]
      exact hprefixes

end Region

/-! ## What is promised of the cues -/

/-- The cues with the numbers of distinct sessions. -/
def countedCues (episodes : List ObserverEpisode) (planeLabel : String) (planeAsns : List UInt32) :
    List GroupedCue :=
  if changedEpisodes episodes = [] then []
  else advertisementCue episodes planeLabel planeAsns (sessionSet (changedEpisodes episodes)).card ::
    (alternateCue episodes (sessionSet (alternateEpisodes episodes)).card).toList ++
    (restorationCue episodes (sessionSet (restoredEpisodes episodes)).card).toList ++
    (disagreementCue episodes (sessionSet (relatedEpisodes episodes .direct)).card
      (sessionSet (relatedEpisodes episodes .indirect)).card
      (sessionSet (changedEpisodes episodes)).card).toList

section Cues
variable {episodes : List ObserverEpisode}

theorem restorationCue_eq_iff {n m : Nat} : restorationCue episodes n = restorationCue episodes m ↔
    restoredEpisodes episodes = [] ∨ n = m := by
  unfold restorationCue
  split
  · next h => exact iff_of_true rfl (Or.inl h)
  · next h =>
    rw [or_iff_right h]
    constructor
    · exact fun heq => congrArg GroupedCue.sessionCount (Option.some.inj heq)
    · exact fun heq => by rw [heq]

/-- Two optional entries after one another are told from what is listed. -/
theorem toList_append_inj {α : Type} {c c' d d' : Option α} (h : c.isSome = c'.isSome) :
    c.toList ++ d.toList = c'.toList ++ d'.toList ↔ c = c' ∧ d = d' := by
  cases c with
  | none =>
    cases c' with
    | none => cases d <;> cases d' <;> simp
    | some _ => cases h
  | some x =>
    cases c' with
    | none => cases h
    | some y => cases d <;> cases d' <;> simp

theorem length_eq_sessions_iff {eps : List ObserverEpisode} :
    eps.length = (sessionSet eps).card ↔ (eps.map (·.session)).Nodup := by
  rw [sessionSet, ← length_eq_card_iff, List.length_map]

/-- **The cues name sessions exactly when no session has two restored episodes, and, where direct and
indirect observers are compared, none has two changed ones.** -/
theorem buildGroupedCues_eq_iff (hbuilt : ∀ e ∈ episodes, e.Built) (planeLabel : String)
    (planeAsns : List UInt32) :
    buildGroupedCues episodes planeLabel planeAsns = countedCues episodes planeLabel planeAsns ↔
      ((restoredEpisodes episodes).map (·.session)).Nodup ∧
        (relatedEpisodes episodes .direct ≠ [] → relatedEpisodes episodes .indirect ≠ [] →
          ((changedEpisodes episodes).map (·.session)).Nodup) := by
  by_cases hnone : changedEpisodes episodes = []
  · rw [buildGroupedCues, countedCues, if_pos hnone, if_pos hnone]
    have hrestored : restoredEpisodes episodes = [] := by rw [restoredEpisodes, hnone]; rfl
    refine iff_of_true rfl ⟨?_, fun hd => absurd ?_ hd⟩
    · rw [hrestored]
      exact List.nodup_nil
    · rw [relatedEpisodes, hnone]
      rfl
  have hchanged : (sessionTexts (changedEpisodes episodes)).length =
      (sessionSet (changedEpisodes episodes)).card :=
    length_sessionTexts fun e he => hbuilt e (List.mem_filter.1 he).1
  have halternate : (sessionTexts (alternateEpisodes episodes)).length =
      (sessionSet (alternateEpisodes episodes)).card :=
    length_sessionTexts fun e he => hbuilt e (List.mem_filter.1 (List.mem_filter.1 he).1).1
  have hrestoration : ∀ n, (restorationCue episodes n).isSome = !decide (restoredEpisodes episodes = []) := by
    intro n
    unfold restorationCue
    split <;> simp [*]
  have htake : ∀ (a : GroupedCue) (b c d : Option GroupedCue),
      (a :: b.toList ++ c.toList ++ d.toList).take 5 = a :: b.toList ++ c.toList ++ d.toList := by
    intro a b c d
    cases b <;> cases c <;> cases d <;> rfl
  rw [buildGroupedCues, countedCues, if_neg hnone, if_neg hnone, htake, hchanged, halternate,
    List.append_assoc, List.append_assoc, List.append_cancel_left_eq,
    toList_append_inj ((hrestoration _).trans (hrestoration _).symm), restorationCue_eq_iff]
  refine and_congr ?_ ?_
  · rw [length_eq_sessions_iff]
    refine or_iff_right_of_imp fun h => ?_
    rw [h]
    exact List.nodup_nil
  · unfold disagreementCue
    split
    · next h =>
      refine iff_of_true rfl fun hd hi => ?_
      rcases h with h | h
      · exact absurd h hd
      · exact absurd h hi
    · next h =>
      constructor
      · intro heq _ _
        exact length_eq_sessions_iff.1 (congrArg GroupedCue.sessionCount (Option.some.inj heq))
      · intro hnodup
        have hall := hnodup (fun hd => h (Or.inl hd)) fun hi => h (Or.inr hi)
        have hpart : ∀ kind, (relatedEpisodes episodes kind).length =
            (sessionSet (relatedEpisodes episodes kind)).card :=
          fun kind => length_eq_sessions_iff.2 (hall.sublist (List.filter_sublist.map _))
        rw [hpart, hpart, length_eq_sessions_iff.2 hall]

end Cues

/-! ## What is promised of the totals -/

structure TotalUnits (episodes : List ObserverEpisode) (u : WorkbenchUnits) : Prop where
  sessions : u.sessionCount = (sessionSet episodes).card
  changedSessions : u.changedSessionCount = (sessionSet (changedEpisodes episodes)).card
  streams : u.streamCount = (streamSet (changedEpisodes episodes)).card
  prefixes : u.distinctPrefixCount = (prefixSet (changedEpisodes episodes)).card

/-- A session is observed in one region. -/
def OneRegion (episodes : List ObserverEpisode) : Prop :=
  ∀ a ∈ episodes, ∀ b ∈ episodes, a.session = b.session → a.observerRegion = b.observerRegion

section Totals
variable {episodes : List ObserverEpisode} (noBaseline incomplete : List String)

theorem changedEpisodes_inRegion (region : String) (episodes : List ObserverEpisode) :
    changedEpisodes (inRegion region episodes) = inRegion region (changedEpisodes episodes) := by
  unfold changedEpisodes inRegion
  rw [List.filter_filter, List.filter_filter]
  exact List.filter_congr fun e _ => Bool.and_comm _ _

theorem inRegion_built (hbuilt : ∀ e ∈ episodes, e.Built) (region : String) :
    ∀ e ∈ inRegion region episodes, e.Built := fun e he => hbuilt e (List.mem_filter.1 he).1

theorem sessions_total_iff :
    (WorkbenchUnits.fromParts (regionalBreadth episodes noBaseline incomplete) episodes).sessionCount =
      (sessionSet episodes).card ↔ OneRegion episodes := by
  have hrows : ∀ region, (regionState episodes noBaseline incomplete region).finalize.eligibleObserverSessions =
      ((episodes.filter (·.observerRegion = region)).flatMap fun e => [e.session]).toFinset.card := by
    intro region
    have hregion := sessionSet_eq_flatMap (inRegion region episodes)
    exact (regionState_tallied episodes noBaseline incomplete region).1.eligible.trans
      (congrArg Finset.card hregion)
  simp only [WorkbenchUnits.fromParts, regionalBreadth_eq, List.map_map, Function.comp_def, hrows,
    sessionSet_eq_flatMap]
  rw [sum_card_parts_iff _ _ _ (regionNames_nodup episodes noBaseline incomplete)
    fun e he => region_mem_regionNames episodes noBaseline incomplete he]
  simp only [List.mem_singleton, forall_eq, OneRegion]

theorem changedRegion_mem {e : ObserverEpisode} (he : e ∈ changedEpisodes episodes) :
    e.observerRegion ∈ regionNames episodes noBaseline incomplete :=
  region_mem_regionNames episodes noBaseline incomplete (List.mem_filter.1 he).1

theorem OneRegion.changed (hone : OneRegion episodes) : OneRegion (changedEpisodes episodes) :=
  fun a ha b hb => hone a (List.mem_filter.1 ha).1 b (List.mem_filter.1 hb).1

theorem changedSessions_total (hone : OneRegion episodes) :
    (WorkbenchUnits.fromParts (regionalBreadth episodes noBaseline incomplete)
      episodes).changedSessionCount = (sessionSet (changedEpisodes episodes)).card := by
  have hrows : ∀ region,
      (regionState episodes noBaseline incomplete region).finalize.changedObserverSessions =
        (((changedEpisodes episodes).filter (·.observerRegion = region)).flatMap
          fun e => [e.session]).toFinset.card := by
    intro region
    have htallied := (regionState_tallied episodes noBaseline incomplete region).1
    have hregion := sessionSet_eq_flatMap (inRegion region (changedEpisodes episodes))
    refine Eq.trans ?_ (congrArg Finset.card hregion)
    rw [← changedEpisodes_inRegion, ← length_sessionKeys, ← htallied.changedKeys]
    exact htallied.changedSessions
  simp only [WorkbenchUnits.fromParts, regionalBreadth_eq, List.map_map, Function.comp_def, hrows,
    sessionSet_eq_flatMap]
  refine (sum_card_parts_iff _ _ _ (regionNames_nodup episodes noBaseline incomplete) fun e he =>
    changedRegion_mem noBaseline incomplete he).2 fun a ha b hb x hxa hxb => ?_
  exact hone.changed a ha b hb ((List.mem_singleton.1 hxa).symm.trans (List.mem_singleton.1 hxb))

theorem streams_total (hbuilt : ∀ e ∈ episodes, e.Built) (hone : OneRegion episodes) :
    (WorkbenchUnits.fromParts (regionalBreadth episodes noBaseline incomplete) episodes).streamCount =
      (streamSet (changedEpisodes episodes)).card := by
  have hrows : ∀ region, (regionState episodes noBaseline incomplete region).finalize.changedStreams =
      (((changedEpisodes episodes).filter (·.observerRegion = region)).flatMap
        fun e => e.streams.map fun s => (e.session, s.pfx)).toFinset.card := by
    intro region
    have htallied := (regionState_tallied episodes noBaseline incomplete region).1
    have hb : ∀ e ∈ inRegion region (changedEpisodes episodes), e.Built :=
      fun e he => hbuilt e (List.mem_filter.1 (List.mem_filter.1 he).1).1
    have hlength := length_streamTexts hb
    rw [← changedEpisodes_inRegion, ← htallied.streamKeys, changedEpisodes_inRegion] at hlength
    exact htallied.streams.trans hlength
  simp only [WorkbenchUnits.fromParts, regionalBreadth_eq, List.map_map, Function.comp_def, hrows,
    streamSet, memberStreams]
  refine (sum_card_parts_iff _ _ _ (regionNames_nodup episodes noBaseline incomplete) fun e he =>
    changedRegion_mem noBaseline incomplete he).2 fun a ha b hb x hxa hxb => ?_
  obtain ⟨s, -, rfl⟩ := List.mem_map.1 hxa
  obtain ⟨s', -, heq⟩ := List.mem_map.1 hxb
  exact hone.changed a ha b hb (congrArg Prod.fst heq).symm

/-- The prefixes of the regions are those of the episodes, whatever the regions share. -/
theorem prefixes_total :
    (WorkbenchUnits.fromParts (regionalBreadth episodes noBaseline incomplete)
      episodes).distinctPrefixCount = (prefixSet (changedEpisodes episodes)).card := by
  have hregion : ∀ region p, p ∈ (regionState episodes noBaseline incomplete region).changedPrefixSet ↔
      p ∈ (inRegion region (changedEpisodes episodes)).flatMap fun e => e.streams.map (·.pfx) := by
    intro region p
    rw [(regionState_tallied episodes noBaseline incomplete region).1.prefixes, changedEpisodes_inRegion,
      prefixesOf, mem_firstSeen]
  refine (length_firstSeen _).trans (congrArg Finset.card ?_)
  ext p
  rw [prefixSet, List.mem_toFinset, List.mem_toFinset, regionalBreadth_eq, List.mem_flatMap,
    List.mem_flatMap]
  constructor
  · rintro ⟨r, hr, hp⟩
    obtain ⟨region, -, rfl⟩ := List.mem_map.1 hr
    obtain ⟨e, he, hs⟩ := List.mem_flatMap.1 ((hregion region p).1 hp)
    exact ⟨e, (List.mem_filter.1 he).1, hs⟩
  · rintro ⟨e, he, hs⟩
    refine ⟨_, List.mem_map.2 ⟨e.observerRegion, changedRegion_mem noBaseline incomplete he, rfl⟩, ?_⟩
    exact (hregion e.observerRegion p).2
      (List.mem_flatMap.2 ⟨e, List.mem_filter.2 ⟨he, decide_eq_true rfl⟩, hs⟩)

/-- **The totals are cardinalities exactly when every session is observed in one region.** -/
theorem totalUnits_iff (hbuilt : ∀ e ∈ episodes, e.Built) :
    TotalUnits episodes
        (WorkbenchUnits.fromParts (regionalBreadth episodes noBaseline incomplete) episodes) ↔
      OneRegion episodes := by
  constructor
  · exact fun h => (sessions_total_iff noBaseline incomplete).1 h.sessions
  · intro hone
    exact ⟨(sessions_total_iff noBaseline incomplete).2 hone,
      changedSessions_total noBaseline incomplete hone, streams_total noBaseline incomplete hbuilt hone,
      prefixes_total noBaseline incomplete⟩

end Totals

/-! ## Transitions -/

/-- Episodes of one session and region have the same transitions. -/
def SameTransitions (episodes : List ObserverEpisode) : Prop :=
  ∀ a ∈ episodes, ∀ b ∈ episodes, a.observerRegion = b.observerRegion → a.session = b.session →
    a.transitionCount = b.transitionCount

/-- The transitions of each region. -/
def regionTransitions (breadth : List RegionObservationSummary) : List (String × Nat) :=
  breadth.map fun r => (r.region, r.transitionCount)

section Transitions
variable {episodes : List ObserverEpisode} (noBaseline incomplete : List String)

theorem regionTransitions_eq (episodes : List ObserverEpisode) :
    regionTransitions (regionalBreadth episodes noBaseline incomplete) =
      (regionNames episodes noBaseline incomplete).map fun region => (region,
        ((keepFirst ObserverEpisode.session (inRegion region episodes)).map (·.transitionCount)).sum) := by
  rw [regionTransitions, regionalBreadth_eq, List.map_map]
  refine List.map_congr_left fun region _ => ?_
  obtain ⟨htallied, hregion⟩ := regionState_tallied episodes noBaseline incomplete region
  exact Prod.ext hregion htallied.transitions

/-- **The transitions do not depend on which episode of a session comes first exactly when its episodes
agree on them.** -/
theorem regionTransitions_perm_iff :
    (∀ episodes', episodes.Perm episodes' →
        regionTransitions (regionalBreadth episodes' noBaseline incomplete) =
          regionTransitions (regionalBreadth episodes noBaseline incomplete)) ↔
      SameTransitions episodes := by
  constructor
  · intro hsame a ha b hb hregion hsession
    have hagree := (sum_keepFirst_perm_iff ObserverEpisode.session (·.transitionCount)
      (l := inRegion a.observerRegion episodes)).1 ?_
    · exact hagree a (List.mem_filter.2 ⟨ha, decide_eq_true rfl⟩) b
        (List.mem_filter.2 ⟨hb, decide_eq_true hregion.symm⟩) hsession
    · intro l hl
      obtain ⟨episodes', hperm, hfilter⟩ := exists_perm_filter _ hl
      have heq := hsame episodes' hperm
      rw [regionTransitions_eq, regionTransitions_eq, regionNames_perm episodes noBaseline incomplete hperm,
        List.map_inj_left] at heq
      have hrow := congrArg Prod.snd
        (heq a.observerRegion (region_mem_regionNames episodes noBaseline incomplete ha))
      rw [inRegion, hfilter] at hrow
      exact hrow
  · intro hagree episodes' h
    rw [regionTransitions_eq, regionTransitions_eq, regionNames_perm episodes noBaseline incomplete h]
    refine List.map_congr_left fun region _ => congrArg (Prod.mk region) ?_
    refine (sum_keepFirst_perm_iff ObserverEpisode.session (·.transitionCount)).2 ?_ _ (h.filter _)
    intro a ha b hb hsession
    obtain ⟨ha, hra⟩ := List.mem_filter.1 ha
    obtain ⟨hb, hrb⟩ := List.mem_filter.1 hb
    exact hagree a ha b hb ((of_decide_eq_true hra).trans (of_decide_eq_true hrb).symm) hsession

end Transitions

/-! ## When every count is a cardinality -/

structure UnitsCount (episodes : List ObserverEpisode) (noBaseline incomplete : List String)
    (planeLabel : String) (planeAsns : List UInt32) : Prop where
  regions : ∀ r ∈ regionalBreadth episodes noBaseline incomplete,
    RegionUnits (inRegion r.region episodes) r
  transitions : ∀ episodes', episodes.Perm episodes' →
    regionTransitions (regionalBreadth episodes' noBaseline incomplete) =
      regionTransitions (regionalBreadth episodes noBaseline incomplete)
  totals : TotalUnits episodes
    (WorkbenchUnits.fromParts (regionalBreadth episodes noBaseline incomplete) episodes)
  totalTransitions : ∀ episodes', episodes.Perm episodes' →
    (WorkbenchUnits.fromParts (regionalBreadth episodes' noBaseline incomplete) episodes').transitionCount =
      (WorkbenchUnits.fromParts (regionalBreadth episodes noBaseline incomplete) episodes).transitionCount
  cues : buildGroupedCues episodes planeLabel planeAsns = countedCues episodes planeLabel planeAsns

/-- Sessions, streams and episodes do not overlap where the code adds them up. -/
structure UnitsApart (episodes : List ObserverEpisode) : Prop where
  oneRegion : OneRegion episodes
  /-- In a region no session and prefix are members of two episodes, or of one twice. -/
  streamsOnce : ∀ region, (memberStreams (inRegion region episodes)).Nodup
  sameTransitions : SameTransitions episodes
  restoredOnce : ((restoredEpisodes episodes).map (·.session)).Nodup
  changedOnce : relatedEpisodes episodes .direct ≠ [] → relatedEpisodes episodes .indirect ≠ [] →
    ((changedEpisodes episodes).map (·.session)).Nodup

/-- **The unit counts are cardinalities exactly when nothing that is added up overlaps.** -/
theorem unitsCount_iff (episodes : List ObserverEpisode) (noBaseline incomplete : List String)
    (planeLabel : String) (planeAsns : List UInt32) (hbuilt : ∀ e ∈ episodes, e.Built) :
    UnitsCount episodes noBaseline incomplete planeLabel planeAsns ↔ UnitsApart episodes := by
  have hcues := buildGroupedCues_eq_iff hbuilt planeLabel planeAsns
  have hrow : ∀ region,
      RegionUnits (inRegion region episodes)
          (regionState episodes noBaseline incomplete region).finalize ↔
        (memberStreams (inRegion region episodes)).Nodup := fun region =>
    regionUnits_iff (regionState_tallied episodes noBaseline incomplete region).1
      (inRegion_built hbuilt region)
  have hname : ∀ region, (regionState episodes noBaseline incomplete region).finalize.region = region :=
    fun region => (regionState_tallied episodes noBaseline incomplete region).2
  constructor
  · intro h
    refine ⟨(totalUnits_iff noBaseline incomplete hbuilt).1 h.totals, fun region => ?_,
      (regionTransitions_perm_iff noBaseline incomplete).1 h.transitions, (hcues.1 h.cues).1,
      (hcues.1 h.cues).2⟩
    by_cases hmem : region ∈ regionNames episodes noBaseline incomplete
    · refine (hrow region).1 ?_
      have hunits := h.regions (regionState episodes noBaseline incomplete region).finalize (by
        rw [regionalBreadth_eq]
        exact List.mem_map.2 ⟨region, hmem, rfl⟩)
      rwa [hname] at hunits
    · -- a region without a row has no episodes
      have hnone : inRegion region episodes = [] := by
        refine List.filter_eq_nil_iff.2 fun e he hregion => hmem ?_
        rw [← of_decide_eq_true hregion]
        exact region_mem_regionNames episodes noBaseline incomplete he
      rw [hnone]
      exact List.nodup_nil
  · intro h
    have htransitions := (regionTransitions_perm_iff noBaseline incomplete).2 h.sameTransitions
    refine ⟨fun r hr => ?_, htransitions, (totalUnits_iff noBaseline incomplete hbuilt).2 h.oneRegion,
      fun episodes' hperm => ?_, hcues.2 ⟨h.restoredOnce, h.changedOnce⟩⟩
    · rw [regionalBreadth_eq] at hr
      obtain ⟨region, -, rfl⟩ := List.mem_map.1 hr
      rw [hname]
      exact (hrow region).2 (h.streamsOnce region)
    · have htotal : ∀ breadth : List RegionObservationSummary, (breadth.map (·.transitionCount)).sum =
          ((regionTransitions breadth).map Prod.snd).sum := by
        intro breadth
        rw [regionTransitions, List.map_map]
        rfl
      rw [WorkbenchUnits.fromParts, WorkbenchUnits.fromParts, htotal, htotal, htransitions episodes' hperm]

/-! ## Two runs over one session -/

/-- An episode of one restored stream, as a run sees it. -/
def restoredEpisode (run transitions : Nat) : ObserverEpisode where
  analysisRun := run
  observerSession := "ris/rrc06 peer 192.0.2.1"
  observerSite := "Otemachi"
  observerRegion := "APAC"
  peerAsn := none
  observedPeerAsns := []
  peerLabel := "unreviewed peer"
  peerRole := "unreviewed"
  relationship := .ambiguous
  namedPathPlane := "Plane A"
  effectKind := .temporaryStreamAbsence
  firstChange := none
  lastChange := none
  restorationStart := none
  restorationEnd := none
  baselineStreamCount := 1
  changedStreamCount := 1
  restoredStreamCount := 1
  distinctPrefixCount := 1
  routeInstanceCount := 1
  unresolvedCount := 0
  transitionCount := transitions
  endState := .visibilityRestored
  cooldownOutcome := .none
  coverageStatus := .complete
  representativeEvidence := ""
  streams := [⟨"198.51.100.0/24", "Withdrawn", true, true, 1, 1, 2, false, none, none, ""⟩]

theorem restoredEpisode_built (run transitions : Nat) : (restoredEpisode run transitions).Built := by
  have htext : "ris/rrc06 peer 192.0.2.1" = "ris" ++ "/" ++ "rrc06" ++ " peer " ++ "192.0.2.1" := by
    decide +kernel
  exact ⟨rfl, "ris", "rrc06", "192.0.2.1", htext⟩

theorem unitsCount_one_episode : (∀ e ∈ [restoredEpisode 1 2], e.Built) ∧
    UnitsCount [restoredEpisode 1 2] [] [] "Plane A" [64500] := by
  have hbuilt : ∀ e ∈ [restoredEpisode 1 2], e.Built := fun e he => by
    rw [List.mem_singleton.1 he]
    exact restoredEpisode_built 1 2
  have hone : ∀ a ∈ [restoredEpisode 1 2], ∀ b ∈ [restoredEpisode 1 2], a = b := fun a ha b hb =>
    (List.mem_singleton.1 ha).trans (List.mem_singleton.1 hb).symm
  refine ⟨hbuilt, (unitsCount_iff _ [] [] "Plane A" [64500] hbuilt).2
    ⟨fun a ha b hb _ => congrArg _ (hone a ha b hb), fun region => ?_,
      fun a ha b hb _ _ => congrArg _ (hone a ha b hb), ?_, fun _ _ => ?_⟩⟩
  · by_cases hregion : "APAC" = region
    · subst hregion
      exact List.nodup_singleton _
    · rw [show inRegion region [restoredEpisode 1 2] = [] from
        List.filter_eq_nil_iff.2 fun e he h => hregion (by
          rw [List.mem_singleton.1 he] at h
          exact of_decide_eq_true h)]
      exact List.nodup_nil
  · exact List.nodup_singleton _
  · exact List.nodup_singleton _

/-- Two runs see the one stream of a session: two baseline streams, and one session named as two. -/
theorem streams_of_two_runs_are_added :
    (∀ e ∈ [restoredEpisode 1 2, restoredEpisode 2 4], e.Built) ∧
      ((regionalBreadth [restoredEpisode 1 2, restoredEpisode 2 4] [] []).map (·.baselineStreams) = [2] ∧
        (streamSet [restoredEpisode 1 2, restoredEpisode 2 4]).card = 1) ∧
      ¬ UnitsCount [restoredEpisode 1 2, restoredEpisode 2 4] [] [] "Plane A" [] := by
  refine ⟨?_, ⟨by decide +kernel, by decide +kernel⟩, fun h => ?_⟩
  · intro e he
    rcases List.mem_cons.1 he with rfl | he
    · exact restoredEpisode_built 1 2
    · rw [List.mem_singleton.1 he]
      exact restoredEpisode_built 2 4
  · exact absurd (congrArg (List.map (·.sessionCount)) h.cues) (by decide +kernel)

/-- **Bug**: the first episode of a session decides its transitions. -/
theorem first_episode_decides_transitions :
    regionTransitions (regionalBreadth [restoredEpisode 1 2, restoredEpisode 2 4] [] []) = [("APAC", 2)] ∧
      regionTransitions (regionalBreadth [restoredEpisode 2 4, restoredEpisode 1 2] [] []) =
        [("APAC", 4)] := by
  decide +kernel

end Inim
