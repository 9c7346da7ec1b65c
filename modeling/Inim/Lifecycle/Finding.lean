import Inim.Lib.Tally
import Inim.Lifecycle.Absence
import Inim.Lifecycle.Restoration
import Inim.Lifecycle.Streams
/-!
# The finding of a report (`output.rs:233-352`)

| here | there |
| --- | --- |
| `FindingCounts`  | the counts at the head of `render_finding` |
| `findingOf`      | its three branches |
| `ReportFinding.text` | the paragraph each branch writes |
| `joinSentences`  | `output.rs:335` |

The first two branches deny what the transition list may contain. They are chosen by the
categories of the *streams*; the sentence speaks of announcements and withdrawals, which are of
*instances*: a stream that loses one instance of two is `Unchanged`.

The sentence on absence counts `withdrawn` streams by `was_withdrawn`, and the ones that returned
or did not by `flags`, which a stream that was never withdrawn may carry as well
(`findingConsistent_iff`).
-/

namespace Inim

open Std Inim.Lib

structure FindingCounts where
  total : Nat
  unchanged : Nat
  prepend : Nat
  stillVia : Nat
  departed : Nat
  withdrawn : Nat
  restored : Nat
  unresolved : Nat
  ambiguous : Nat
deriving DecidableEq, Repr

def FindingCounts.of (lcs : List StreamLifecycle) : FindingCounts where
  total := lcs.length
  unchanged := lcs.countP (·.category == .unchanged)
  prepend := lcs.countP (·.category == .prependOnly)
  stillVia := lcs.countP (·.category == .pathChangedStillViaTransit)
  departed := lcs.countP (·.category == .departedTransitPath)
  withdrawn := lcs.countP (·.wasWithdrawn)
  restored := lcs.countP (·.flags.restored)
  unresolved := lcs.countP (·.flags.notRestored)
  ambiguous := lcs.countP (·.flags.addPathAmbiguous)

def FindingCounts.anyChange (c : FindingCounts) : Bool :=
  0 < c.prepend + c.stillVia + c.departed + c.withdrawn

inductive ReportFinding where
  | noTransitions (total : Nat)
  | attributesOnly (total communityOnly : Nat)
  | impact (counts : FindingCounts)
deriving DecidableEq, Repr

def findingOf (lcs : List StreamLifecycle) (transitions : List RouteTransition) : ReportFinding :=
  let c := FindingCounts.of lcs
  if !c.anyChange && transitions.isEmpty then .noTransitions c.total
  else if !c.anyChange then
    .attributesOnly c.total
      (transitions.countP fun t => t.effects.communitiesChanged && !t.effects.materialPathChanged)
  else .impact c

/-! ## The paragraph -/

def joinSentences (items : List String) : String :=
  match items with
  | [] => ""
  | [a] => a
  | [a, b] => s!"{a} and {b}"
  | _ => items.zipIdx.foldl (fun out (item, i) =>
      if i = items.length - 1 ∧ 0 < i then out ++ s!", and {item}"
      else if 0 < i then out ++ s!", {item}"
      else out ++ item) ""

/-- The sentence on absence; `restored` streams "later returned", all of them or so many. -/
def FindingCounts.absence (c : FindingCounts) : String :=
  s!"{c.withdrawn} of {c.total} selected observer-prefix streams became absent" ++
  (if c.restored = c.withdrawn then " and later returned"
    else if 0 < c.restored then s!"; {c.restored} of them later returned"
    else "") ++
  (if 0 < c.unresolved then
    s!", while {c.unresolved} had not returned by the end of the observation window"
  else "") ++ "."

def FindingCounts.remainder (c : FindingCounts) : List String :=
  (if 0 < c.prepend then [s!"{c.prepend} showed prepend-only changes"] else []) ++
  (if 0 < c.stillVia then
    [s!"{c.stillVia} had other material path changes while retaining the reviewed transit"]
  else []) ++
  (if 0 < c.departed then [s!"{c.departed} remained visible after departing that transit"]
  else []) ++
  (if 0 < c.unchanged then [s!"{c.unchanged} remained unchanged"] else [])

def ReportFinding.text (collectors : List String) : ReportFinding → String
  | .noTransitions total =>
    s!"Across {total} selected observer-prefix streams at " ++ ", ".intercalate collectors ++
    ", inim observed no announcements, withdrawals, path changes, or community changes during " ++
    "the event analysis window."
  | .attributesOnly total communityOnly =>
    s!"Across {total} selected observer-prefix streams at " ++ ", ".intercalate collectors ++
    ", inim observed no announcements, withdrawals, or path changes; " ++
    s!"{communityOnly} community-only attribute change(s) occurred."
  | .impact c =>
    let remaining := c.total - c.withdrawn
    " ".intercalate (
      ["The event produced partial and heterogeneous external routing impact."] ++
      (if 0 < c.withdrawn then [c.absence] else []) ++
      (if c.remainder.isEmpty then []
        else [s!"Among the remaining {remaining} streams, " ++ joinSentences c.remainder ++ "."]) ++
      (if 0 < c.ambiguous then
        [s!"{c.ambiguous} stream(s) have ambiguous ADD-PATH continuity and were excluded from " ++
          "strong stream-level assessment."]
      else []))

def renderFinding (lcs : List StreamLifecycle) (transitions : List RouteTransition)
    (collectors : List String) : String := (findingOf lcs transitions).text collectors

/-- The paragraph says that nothing was announced or withdrawn and no path changed. -/
def ReportFinding.denies : ReportFinding → Bool
  | .impact _ => false
  | _ => true

/-- An announcement, a withdrawal or a change of path. -/
def RouteTransition.movesRoute (t : RouteTransition) : Bool :=
  match t.kind with
  | .announcement | .restoration | .withdrawal | .pathReplacement _ _ | .returnToBaseline => true
  | .duplicate | .attributeChange | .sessionReset => false

/-! ## The categories and flags of one stream -/

/-- Something counts as a change of the stream: it is lost, it is visible off the transit after a
transition, or a path of it is replaced by one of another shape. -/
def Eventful (pred : TransitPredicate) (baseline : InstanceMap) (l : List RouteTransition) : Prop :=
  IsLost baseline l ∨ DepartsLater pred baseline l ∨ ∃ t ∈ l, replacementCategory pred t ≠ none

section Stream
variable (pred : TransitPredicate) (baseline : InstanceMap) (l : List RouteTransition)

theorem Sim.mem_seenCategories_run (c : StreamCategory) :
    c ∈ (Sim.run pred baseline l).seenCategories ↔
      (∃ t ∈ l, replacementCategory pred t = some c) ∨
        (c = .departedTransitPath ∧ DepartsLater pred baseline l) := by
  unfold DepartsLater
  induction l using List.reverseRecOn with
  | nil => simp [init]
  | append_singleton l t ih =>
    rw [run_concat, step_categories, ih, run_active, exists_split_concat]
    simp only [List.mem_append, List.mem_singleton, or_and_right, exists_or, exists_eq_left, and_or_left]
    exact or_or_or_comm

theorem Sim.category_unchanged_iff (s : Sim) : s.category = .unchanged ↔
    s.streamWithdrawalCount = 0 ∧ .departedTransitPath ∉ s.seenCategories ∧
      .pathChangedStillViaTransit ∉ s.seenCategories ∧ .prependOnly ∉ s.seenCategories := by
  unfold Sim.category
  split_ifs with h
  · simp [h.ne']
  all_goals simp_all

theorem eventful_iff (opk : ObserverPrefixKey) (cooldownEnd : DateTime) :
    Eventful pred baseline l ↔
      (buildOneLifecycle opk baseline l cooldownEnd pred).category ≠ .unchanged := by
  have hcat : (buildOneLifecycle opk baseline l cooldownEnd pred).category =
      (Sim.run pred baseline l).category := rfl
  rw [hcat, Ne, Sim.category_unchanged_iff, Eventful, isLost_iff pred]
  simp only [Sim.mem_seenCategories_run]
  constructor
  · rintro (h | h | ⟨t, ht, h⟩) ⟨hz, hdep, hvia, hpre⟩
    · omega
    · exact hdep (.inr ⟨trivial, h⟩)
    · rcases replacementCategory_cases pred t with hc | hc | hc | hc
      · exact h hc
      · exact hpre (.inl ⟨t, ht, hc⟩)
      · exact hvia (.inl ⟨t, ht, hc⟩)
      · exact hdep (.inl ⟨t, ht, hc⟩)
  · intro h
    by_contra hno
    obtain ⟨hlost, hlater, hshape⟩ : _ ∧ _ ∧ _ := by simpa only [not_or] using hno
    have hnone (c : StreamCategory) : ¬ ∃ t ∈ l, replacementCategory pred t = some c :=
      fun ⟨t, ht, hc⟩ => hshape ⟨t, ht, by simp [hc]⟩
    refine h ⟨by omega, ?_, ?_, ?_⟩
    · rintro (hc | ⟨-, hc⟩)
      · exact hnone _ hc
      · exact hlater hc
    · rintro (hc | ⟨hc, -⟩)
      · exact hnone _ hc
      · cases hc
    · rintro (hc | ⟨hc, -⟩)
      · exact hnone _ hc
      · cases hc

theorem wasWithdrawn_iff (opk : ObserverPrefixKey) (cooldownEnd : DateTime) :
    (buildOneLifecycle opk baseline l cooldownEnd pred).wasWithdrawn = true ↔ IsLost baseline l := by
  have hflag : (buildOneLifecycle opk baseline l cooldownEnd pred).wasWithdrawn =
      decide (0 < (Sim.run pred baseline l).streamWithdrawalCount) := rfl
  rw [hflag, decide_eq_true_eq, ← isLost_iff]

theorem category_withdrawn (opk : ObserverPrefixKey) (cooldownEnd : DateTime) :
    (buildOneLifecycle opk baseline l cooldownEnd pred).wasWithdrawn =
      ((buildOneLifecycle opk baseline l cooldownEnd pred).category == .withdrawn) := by
  rw [Bool.eq_iff_iff, beq_iff_eq, wasWithdrawn_iff, isLost_iff pred, ← Sim.category_withdrawn_iff]
  rfl

end Stream

/-! ## The counts of a run -/

section Counts
variable (transitions : List RouteTransition) (cohort : FrozenCohort) (cooldownEnd : DateTime)
  (pred : TransitPredicate)

/-- What the report counts is counted over the streams. -/
theorem countP_buildLifecycles (p : StreamLifecycle → Bool) :
    (buildLifecycles transitions cohort cooldownEnd pred).countP p =
      (lifecycleStreams transitions cohort).countP fun s =>
        p (lifecycleOf cohort cooldownEnd pred transitions s) := by
  rw [buildLifecycles, (sortBy_perm _ _).countP_eq, List.countP_map]
  rfl

/-- Every stream is in one category, and withdrawn is one of them. -/
theorem counts_partition {lcs : List StreamLifecycle}
    (h : ∀ lc ∈ lcs, lc.wasWithdrawn = (lc.category == .withdrawn)) :
    (FindingCounts.of lcs).withdrawn + (FindingCounts.of lcs).prepend +
      (FindingCounts.of lcs).stillVia + (FindingCounts.of lcs).departed +
      (FindingCounts.of lcs).unchanged = lcs.length := by
  induction lcs with
  | nil => rfl
  | cons lc lcs ih =>
    have hlc := h lc (List.mem_cons_self ..)
    have ih := ih fun x hx => h x (List.mem_cons_of_mem _ hx)
    simp only [FindingCounts.of, List.countP_cons, List.length_cons, hlc] at ih ⊢
    cases lc.category <;> simp <;> omega

theorem wasWithdrawn_eq_category {lc : StreamLifecycle}
    (h : lc ∈ buildLifecycles transitions cohort cooldownEnd pred) :
    lc.wasWithdrawn = (lc.category == .withdrawn) := by
  rw [buildLifecycles, (sortBy_perm _ _).mem_iff, List.mem_map] at h
  obtain ⟨s, -, rfl⟩ := h
  exact category_withdrawn ..

/-- A change is reported iff some stream is not `Unchanged`. -/
theorem anyChange_iff {lcs : List StreamLifecycle}
    (h : ∀ lc ∈ lcs, lc.wasWithdrawn = (lc.category == .withdrawn)) :
    (FindingCounts.of lcs).anyChange = true ↔ ∃ lc ∈ lcs, lc.category ≠ .unchanged := by
  have hsum := counts_partition h
  have hlt : (FindingCounts.of lcs).unchanged < lcs.length ↔ ∃ lc ∈ lcs, lc.category ≠ .unchanged := by
    rw [show (FindingCounts.of lcs).unchanged = lcs.countP (·.category == .unchanged) from rfl,
      List.countP_lt_length_iff]
    simp
  rw [← hlt, FindingCounts.anyChange, decide_eq_true_eq]
  omega

theorem anyChange_iff_eventful :
    (FindingCounts.of (buildLifecycles transitions cohort cooldownEnd pred)).anyChange = true ↔
      ∃ s ∈ lifecycleStreams transitions cohort,
        Eventful pred (baselineFor cohort s) (streamTransitions s transitions) := by
  rw [anyChange_iff fun lc h => wasWithdrawn_eq_category _ _ _ _ h, buildLifecycles]
  simp only [(sortBy_perm lifecycleOrder _).mem_iff, List.mem_map, exists_exists_and_eq_and]
  exact exists_congr fun s => and_congr_right fun _ => (eventful_iff ..).symm

theorem withdrawn_pos_iff :
    0 < (FindingCounts.of (buildLifecycles transitions cohort cooldownEnd pred)).withdrawn ↔
      ∃ s ∈ lifecycleStreams transitions cohort,
        IsLost (baselineFor cohort s) (streamTransitions s transitions) := by
  rw [show (FindingCounts.of (buildLifecycles transitions cohort cooldownEnd pred)).withdrawn =
    (buildLifecycles transitions cohort cooldownEnd pred).countP (·.wasWithdrawn) from rfl,
    countP_buildLifecycles, List.countP_pos_iff]
  exact exists_congr fun s => and_congr_right fun _ => wasWithdrawn_iff ..

/-- "later returned" counts the lost streams iff only lost streams came back. -/
theorem restored_count_iff :
    (FindingCounts.of (buildLifecycles transitions cohort cooldownEnd pred)).restored =
        ((lifecycleStreams transitions cohort).countP fun s =>
          decide (IsLost (baselineFor cohort s) (streamTransitions s transitions)) &&
            endsVia pred (baselineFor cohort s) (streamTransitions s transitions)) ↔
      ∀ s ∈ lifecycleStreams transitions cohort,
        ComesBack (baselineFor cohort s) (streamTransitions s transitions) →
        endsVia pred (baselineFor cohort s) (streamTransitions s transitions) = true →
        IsLost (baselineFor cohort s) (streamTransitions s transitions) := by
  rw [show (FindingCounts.of (buildLifecycles transitions cohort cooldownEnd pred)).restored =
    (buildLifecycles transitions cohort cooldownEnd pred).countP (·.flags.restored) from rfl,
    countP_buildLifecycles]
  have hand : ((lifecycleStreams transitions cohort).countP fun s =>
      decide (IsLost (baselineFor cohort s) (streamTransitions s transitions)) &&
        endsVia pred (baselineFor cohort s) (streamTransitions s transitions)) =
      (lifecycleStreams transitions cohort).countP fun s =>
        (lifecycleOf cohort cooldownEnd pred transitions s).flags.restored &&
          decide (IsLost (baselineFor cohort s) (streamTransitions s transitions)) := by
    refine List.countP_congr fun s _ => ?_
    rw [Bool.and_eq_true, Bool.and_eq_true, decide_eq_true_eq, lifecycleOf, restored_iff_ends]
    constructor
    · rintro ⟨hlost, hvia⟩
      exact ⟨⟨comesBack_of_lost hlost (isEmpty_of_endsVia hvia), hvia⟩, hlost⟩
    · rintro ⟨⟨-, hvia⟩, hlost⟩
      exact ⟨hlost, hvia⟩
  rw [hand, countP_eq_countP_and_iff]
  simp only [lifecycleOf, restored_iff_ends, decide_eq_true_eq, and_imp]

/-- "had not returned" counts the lost streams iff no stream that departed ends off the transit. -/
theorem unresolved_count_iff :
    (FindingCounts.of (buildLifecycles transitions cohort cooldownEnd pred)).unresolved =
        ((lifecycleStreams transitions cohort).countP fun s =>
          decide (IsLost (baselineFor cohort s) (streamTransitions s transitions)) &&
            (activeRun (baselineFor cohort s) (streamTransitions s transitions)).isEmpty) ↔
      ∀ s ∈ lifecycleStreams transitions cohort,
        Departs pred (baselineFor cohort s) (streamTransitions s transitions) →
        (activeRun (baselineFor cohort s) (streamTransitions s transitions)).isEmpty = false →
        endsVia pred (baselineFor cohort s) (streamTransitions s transitions) = true := by
  rw [show (FindingCounts.of (buildLifecycles transitions cohort cooldownEnd pred)).unresolved =
    (buildLifecycles transitions cohort cooldownEnd pred).countP (·.flags.notRestored) from rfl,
    countP_buildLifecycles]
  have hand : ((lifecycleStreams transitions cohort).countP fun s =>
      decide (IsLost (baselineFor cohort s) (streamTransitions s transitions)) &&
        (activeRun (baselineFor cohort s) (streamTransitions s transitions)).isEmpty) =
      (lifecycleStreams transitions cohort).countP fun s =>
        (lifecycleOf cohort cooldownEnd pred transitions s).flags.notRestored &&
          (activeRun (baselineFor cohort s) (streamTransitions s transitions)).isEmpty := by
    refine List.countP_congr fun s _ => ?_
    rw [Bool.and_eq_true, Bool.and_eq_true, decide_eq_true_eq, lifecycleOf, notRestored_iff_ends]
    constructor
    · rintro ⟨hlost, hempty⟩
      exact ⟨.inl ⟨hlost, hempty⟩, hempty⟩
    · rintro ⟨⟨hlost, -⟩ | ⟨-, hvis, -⟩, hempty⟩
      · exact ⟨hlost, hempty⟩
      · rw [hvis] at hempty
        cases hempty
  rw [hand, countP_eq_countP_and_iff]
  refine forall₂_congr fun s _ => ?_
  rw [lifecycleOf, notRestored_iff_ends]
  constructor
  · intro h hdep hvis
    by_contra hoff
    rw [h (.inr ⟨hdep, hvis, by simpa using hoff⟩)] at hvis
    cases hvis
  · rintro h (⟨-, hempty⟩ | ⟨hdep, hvis, hoff⟩)
    · exact hempty
    · rw [h hdep hvis] at hoff
      cases hoff

/-- The numbers of the finding against the transitions. -/
structure FindingConsistent : Prop where
  /-- What is denied did not occur. -/
  denies : (findingOf (buildLifecycles transitions cohort cooldownEnd pred) transitions).denies = true →
    ∀ t ∈ transitions, t.movesRoute = false
  /-- "later returned": the streams lost that end on a matching route. -/
  returned : ∀ c, findingOf (buildLifecycles transitions cohort cooldownEnd pred) transitions =
      .impact c → 0 < c.withdrawn →
    c.restored = (lifecycleStreams transitions cohort).countP fun s =>
      decide (IsLost (baselineFor cohort s) (streamTransitions s transitions)) &&
        endsVia pred (baselineFor cohort s) (streamTransitions s transitions)
  /-- "had not returned": the streams lost that end absent. -/
  notReturned : ∀ c, findingOf (buildLifecycles transitions cohort cooldownEnd pred) transitions =
      .impact c → 0 < c.withdrawn →
    c.unresolved = (lifecycleStreams transitions cohort).countP fun s =>
      decide (IsLost (baselineFor cohort s) (streamTransitions s transitions)) &&
        (activeRun (baselineFor cohort s) (streamTransitions s transitions)).isEmpty
  partition : ∀ c, findingOf (buildLifecycles transitions cohort cooldownEnd pred) transitions =
      .impact c →
    c.withdrawn + c.prepend + c.stillVia + c.departed + c.unchanged = c.total ∧
      c.total = (lifecycleStreams transitions cohort).length

theorem findingOf_denies_iff :
    (findingOf (buildLifecycles transitions cohort cooldownEnd pred) transitions).denies = true ↔
      (FindingCounts.of (buildLifecycles transitions cohort cooldownEnd pred)).anyChange = false := by
  unfold findingOf
  dsimp only
  split_ifs with h1 h2
  · simpa [ReportFinding.denies] using (Bool.and_eq_true_iff.1 h1).1
  · simpa [ReportFinding.denies] using h2
  · simpa [ReportFinding.denies] using h2

theorem findingOf_eq_impact {c : FindingCounts} :
    findingOf (buildLifecycles transitions cohort cooldownEnd pred) transitions = .impact c ↔
      (FindingCounts.of (buildLifecycles transitions cohort cooldownEnd pred)).anyChange = true ∧
        c = FindingCounts.of (buildLifecycles transitions cohort cooldownEnd pred) := by
  unfold findingOf
  dsimp only
  split_ifs with h1 h2
  · have hno := (Bool.and_eq_true_iff.1 h1).1
    simpa using fun hyes => absurd hyes (by simpa using hno)
  · simpa using fun hyes => absurd hyes (by simpa using h2)
  · rw [ReportFinding.impact.injEq, eq_comm]
    exact ⟨fun hc => ⟨by simpa using h2, hc⟩, And.right⟩

/-- **The finding is consistent iff** every announcement, withdrawal or change of path has a stream
that was lost, was seen off the transit or changed its path's shape; and, where a stream was lost,
only lost streams came back to a matching route and none that departed ends off the transit. -/
theorem findingConsistent_iff :
    FindingConsistent transitions cohort cooldownEnd pred ↔
      ((∃ t ∈ transitions, t.movesRoute = true) → ∃ s ∈ lifecycleStreams transitions cohort,
        Eventful pred (baselineFor cohort s) (streamTransitions s transitions)) ∧
      ((∃ s ∈ lifecycleStreams transitions cohort,
          IsLost (baselineFor cohort s) (streamTransitions s transitions)) →
        (∀ s ∈ lifecycleStreams transitions cohort,
          ComesBack (baselineFor cohort s) (streamTransitions s transitions) →
          endsVia pred (baselineFor cohort s) (streamTransitions s transitions) = true →
          IsLost (baselineFor cohort s) (streamTransitions s transitions)) ∧
        ∀ s ∈ lifecycleStreams transitions cohort,
          Departs pred (baselineFor cohort s) (streamTransitions s transitions) →
          (activeRun (baselineFor cohort s) (streamTransitions s transitions)).isEmpty = false →
          endsVia pred (baselineFor cohort s) (streamTransitions s transitions) = true) := by
  have hpos {c : FindingCounts} (hc : 0 < c.withdrawn) : c.anyChange = true := by
    rw [FindingCounts.anyChange, decide_eq_true_eq]
    omega
  rw [← anyChange_iff_eventful transitions cohort cooldownEnd pred,
    ← withdrawn_pos_iff transitions cohort cooldownEnd pred,
    ← restored_count_iff transitions cohort cooldownEnd pred,
    ← unresolved_count_iff transitions cohort cooldownEnd pred]
  constructor
  · rintro ⟨hdenies, hreturned, hnot, -⟩
    refine ⟨fun ⟨t, ht, hmoves⟩ => ?_, fun hwd => ?_⟩
    · by_contra hno
      rw [Bool.not_eq_true, ← findingOf_denies_iff] at hno
      rw [hdenies hno t ht] at hmoves
      cases hmoves
    · have himpact := (findingOf_eq_impact transitions cohort cooldownEnd pred).2 ⟨hpos hwd, rfl⟩
      exact ⟨hreturned _ himpact hwd, hnot _ himpact hwd⟩
  · rintro ⟨hmoves, hcounts⟩
    refine ⟨fun hdeny t ht => ?_, fun c hc hwd => ?_, fun c hc hwd => ?_, fun c hc => ?_⟩
    · by_contra hm
      rw [findingOf_denies_iff, hmoves ⟨t, ht, by simpa using hm⟩] at hdeny
      cases hdeny
    · obtain ⟨-, rfl⟩ := (findingOf_eq_impact ..).1 hc
      exact (hcounts hwd).1
    · obtain ⟨-, rfl⟩ := (findingOf_eq_impact ..).1 hc
      exact (hcounts hwd).2
    · obtain ⟨-, rfl⟩ := (findingOf_eq_impact ..).1 hc
      refine ⟨counts_partition fun lc h => wasWithdrawn_eq_category _ _ _ _ h, ?_⟩
      simp [FindingCounts.of, buildLifecycles, (sortBy_perm lifecycleOrder _).length_eq]

end Counts

/-! ### One instance of two, and a departed stream beside a lost one -/

/-- Stream `rrc00` is withdrawn and announced again; `rrc01` moves off AS 1 and stays. -/
def lostAndDeparted : List RouteObservation :=
  [.plain "rrc00" 0 .ribEntry 0 none [1, 2], .plain "rrc01" 1 .ribEntry 0 none [1, 2],
    .plain "rrc00" 0 .withdrawal 15 none, .plain "rrc01" 1 .announcement 16 none [3, 2],
    .plain "rrc00" 2 .announcement 17 none [1, 2]]

/-- The finding over the event window from 10 to 20, cooldown to 30. -/
def sampleFinding (obs : List RouteObservation) : ReportFinding :=
  findingOf (buildLifecycles (transitionsAfter 10 20 30 obs)
    (freezeCohort [2] (.containsAny [1]) obs) 30 (.containsAny [1])) (transitionsAfter 10 20 30 obs)

/-- **Bug**: the one transition is a withdrawal, and the finding denies it. -/
theorem withdrawal_denied :
    (transitionsAfter 10 20 30 oneOfTwoLost).map (·.kind) = [.withdrawal] ∧
    (sampleFinding oneOfTwoLost).text ["rrc00"] = "Across 1 selected observer-prefix streams at " ++
      "rrc00, inim observed no announcements, withdrawals, or path changes; 0 community-only " ++
      "attribute change(s) occurred." ∧
    ¬ FindingConsistent (transitionsAfter 10 20 30 oneOfTwoLost)
      (freezeCohort [2] (.containsAny [1]) oneOfTwoLost) 30 (.containsAny [1]) := by
  refine ⟨by decide, by decide +kernel, fun h => ?_⟩
  exact absurd (h.denies (by decide +kernel)) (by decide)

/-- **Bug**: the one stream that became absent returned, and the departed one "had not returned". -/
theorem departed_counted_as_absent :
    ∃ c, sampleFinding lostAndDeparted = .impact c ∧
    c.absence = "1 of 2 selected observer-prefix streams became absent and later returned, while " ++
      "1 had not returned by the end of the observation window." ∧
    ¬ FindingConsistent (transitionsAfter 10 20 30 lostAndDeparted)
      (freezeCohort [2] (.containsAny [1]) lostAndDeparted) 30 (.containsAny [1]) := by
  have hc : sampleFinding lostAndDeparted = .impact ⟨2, 0, 0, 0, 1, 1, 1, 1, 0⟩ := by decide +kernel
  refine ⟨_, hc, by decide +kernel, fun h => ?_⟩
  exact absurd (h.notReturned _ hc (by decide)) (by decide +kernel)

end Inim
