import Inim.Workbench.ChronologySteps
import Inim.Workbench.Clock
/-!
# The order of a chronology (`catalog/workbench.rs:3011-3338`)

A reader expects the steps in the order of the instants that they stand for, from the event baseline to
the end of the analysis, and in them every change of a path. But a step has no date once its time is
written.

* **Bug**: the steps are sorted by the time of day, so after midnight they come before the others.
* **Bug**: the later changes are "deduplicated by (timestamp, path)", but kept by the timestamp alone,
  so of two paths at one time the first is shown. The first change of a stream is passed over wherever
  it is not the first of the finding.
* **Bug**: two later changes of one path at one time of day, a day apart, are taken for repeats.

`chronologyRight_iff` is the exact condition.
-/

namespace Inim

open Std Inim.Lib

/-- A change of the routes, and not a state of them. -/
def StepLabel.isChange : StepLabel → Bool
  | eventBaseline | preWithdrawalRoute | preFindingRoute | eventWindowEnd | analysisEnd => false
  | absent | firstChange | firstRouteAfterReturn | reviewedPlaneReturn | equivalentRouteReturn
  | exactBaselineReturn | preFindingRouteReturn | laterChange => true

namespace RoutingFinding
variable (instant : String → Option DateTime) (f : RoutingFinding) (windowEnd : String)

/-! ## What a step stands for -/

/-- The times that the text of the absence is made of. Without a return it lasts to the end of the
window. -/
def absenceSpan : Option (String × String) :=
  f.absenceEnds.map fun (first, last) =>
    (first, if findingTime first = findingTime (last.getD "the event-window end") then first
      else last.getD windowEnd)

/-- The times that the text of a step is made of, the first and the last. The event baseline stands for
the start of the event. -/
def span : StepSource → Option (String × String)
  | .eventBaseline => none
  | .preFinding | .firstChange => if f.firstTime = "" then none else some (f.firstTime, f.firstTime)
  | .absence => f.absenceSpan windowEnd
  | .firstReturn => some (f.replacement.1, f.replacement.1)
  | .exactReturn t => some ((f.exactRange t).getD (t, t))
  | .planeReturn t | .equivalentReturn t | .later t | .changedAgain t => some (t, t)
  | .windowEnd => some (windowEnd, windowEnd)
  | .analysisEnd => some (f.analysisEnd, f.analysisEnd)

/-- The instant that a step stands for, or begins at. -/
def start (e : StepSource) : Option DateTime := (f.span windowEnd e).bind fun s => instant s.1

/-- The time is between the times. -/
def Within (s : String × String) (t : String) : Prop :=
  ∃ x, instant t = some x ∧ (∃ a, instant s.1 = some a ∧ a ≤ x) ∧ ∀ b, instant s.2 = some b → x ≤ b

abbrev At (u t : String) : Prop := Within instant (u, u) t

/-- The step tells of the transition: it is a change at its time, and where it has a path it is the path
after it. The step of an absence tells of the withdrawals. -/
structure Tells (p : StepSource × ChronologyStep) (t : PathTransition) : Prop where
  isChange : p.2.label.isChange = true
  time : ∃ s, f.span windowEnd p.1 = some s ∧ Within instant s t.timestamp
  path : if p.2.label = .absent then t.afterPath = []
    else t.afterPath ≠ [] ∧ ∀ x, p.2.path = some x → x = collapsePath t.afterPath

/-- The chronology as it should be. -/
structure ChronologyRight : Prop where
  ordered : (f.shownSteps windowEnd).Pairwise fun p q =>
    ∀ x y, f.start instant windowEnd p.1 = some x → f.start instant windowEnd q.1 = some y → x ≤ y
  baselineFirst : ∀ p ∈ f.shownSteps windowEnd, p.2.label = .eventBaseline →
    (f.shownSteps windowEnd).head? = some p
  analysisEndLast : ∃ p, (f.shownSteps windowEnd).getLast? = some p ∧ p.2.label = .analysisEnd
  /-- Each change of a path is told. -/
  complete : ∀ s ∈ f.streams, ∀ t ∈ s.transitions, t.beforePath ≠ t.afterPath →
    ∃ p ∈ f.shownSteps windowEnd, f.Tells instant windowEnd p t
  /-- No step is merged into another. -/
  unmerged : ∀ p ∈ f.madeSteps windowEnd, p ∈ f.shownSteps windowEnd

/-! ## The condition -/

/-- The finding has what tells of the transition. -/
inductive Told (t : PathTransition) : Prop
  | absence {s : String × String} (habsence : f.isAbsence = true)
      (hspan : f.absenceSpan windowEnd = some s) (ht : Within instant s t.timestamp)
      (hpath : t.afterPath = [])
  | firstReturn (habsence : f.isAbsence = true) (htime : f.replacement.1 ≠ "")
      (ht : At instant f.replacement.1 t.timestamp) (hpath : t.afterPath ≠ [])
      (hsame : f.replacement.2 = collapsePath t.afterPath)
  | firstChange (habsence : f.isAbsence = false) (hsig : f.changedPathSignature ≠ "—")
      (hfirst : f.firstTime ≠ "") (ht : At instant f.firstTime t.timestamp) (hpath : t.afterPath ≠ [])
      (hsame : f.changedPathSignature = collapsePath t.afterPath)
  | planeReturn {u : String} (hu : f.reviewedPlaneRestoredAt = some u) (ht : At instant u t.timestamp)
      (hpath : t.afterPath ≠ [])
  | equivalentReturn {u : String} (hu : f.equivalentRouteRestoredAt = some u)
      (hvis : f.visibilityRestoredAt ≠ some u) (ht : At instant u t.timestamp)
      (hpath : t.afterPath ≠ [])
      (hsame : f.changedPathSignature = collapsePath t.afterPath)
  | exactReturn {u : String} (hu : f.exactBaselineRestoredAt = some u)
      (ht : Within instant ((f.exactRange u).getD (u, u)) t.timestamp) (hpath : t.afterPath ≠ [])
      (hsame : f.baselinePathSignature = collapsePath t.afterPath)
  /-- It has the path of the first later change of its time. -/
  | later {u : String} (ht : At instant u t.timestamp) (hpath : t.afterPath ≠ [])
      (hsame : f.laterPath u = some (collapsePath t.afterPath))
  | changedAgain {u : String} (hu : f.stateAtAnalysisEnd = .stillChangingBeforeAnalysisEnd u)
      (ht : At instant u t.timestamp) (hpath : t.afterPath ≠ [])

/-- Between two later changes to one path that are written with one time there is another with it. -/
def LaterApart : Prop :=
  ∀ a b, f.Gives windowEnd (.later a) → f.Gives windowEnd (.later b) → a < b →
    findingTime a = findingTime b → f.laterPath a = f.laterPath b →
    ∃ c, f.Gives windowEnd (.later c) ∧ a < c ∧ c < b ∧
      f.clock windowEnd (.later c) = f.clock windowEnd (.later a)

/-- The times of day are in the order of the instants, between that of the baseline and that of the end
of the analysis, and the finding has what tells of the changes, with no two alike. -/
structure ChronologyFits : Prop where
  inOrder : ∀ a b, f.Gives windowEnd a → f.Gives windowEnd b → f.ByClock windowEnd a b →
    ∀ x y, f.start instant windowEnd a = some x → f.start instant windowEnd b = some y → x ≤ y
  baseline : f.Gives windowEnd .eventBaseline → ∀ e, f.Gives windowEnd e →
    f.clock windowEnd .eventBaseline ≤ f.clock windowEnd e
  analysisEnd : ∀ e, f.Gives windowEnd e → f.clock windowEnd e ≤ f.clock windowEnd .analysisEnd
  told : ∀ s ∈ f.streams, ∀ t ∈ s.transitions, t.beforePath ≠ t.afterPath → f.Told instant windowEnd t
  apart : f.LaterApart windowEnd

variable {instant f windowEnd}

/-! ## Order -/

theorem madeOf_of_mem {p : StepSource × ChronologyStep} (h : p ∈ f.madeSteps windowEnd) :
    f.MadeOf windowEnd p :=
  madeSteps_made.madeOf p h

theorem ordered_iff {R : StepSource → StepSource → Prop} :
    ((f.sortedSteps windowEnd).Pairwise fun p q => R p.1 q.1) ↔
      ∀ a b, f.Gives windowEnd a → f.Gives windowEnd b → f.ByClock windowEnd a b → R a b := by
  rw [sortedSteps_pairwise_iff]
  constructor
  · intro h a b ha hb hab
    obtain ⟨p, hp, rfl⟩ := exists_made ha
    obtain ⟨q, hq, rfl⟩ := exists_made hb
    exact h p hp q hq hab
  · intro h p hp q hq hpq
    exact h _ _ (madeOf_of_mem hp).gives (madeOf_of_mem hq).gives hpq

theorem eq_eventBaseline {e : StepSource} (h : f.labelOf e = .eventBaseline) : e = .eventBaseline := by
  have hrank := rank_labelOf (f := f) e
  rw [h] at hrank
  cases e with
  | eventBaseline => rfl
  | _ => simp [StepLabel.rank, StepSource.position] at hrank

theorem eq_analysisEnd {e : StepSource} (h : f.labelOf e = .analysisEnd) : e = .analysisEnd := by
  have hrank := rank_labelOf (f := f) e
  rw [h] at hrank
  cases e with
  | analysisEnd => rfl
  | _ => simp [StepLabel.rank, StepSource.position] at hrank

/-- Nothing is made before the event baseline or after the end of the analysis. -/
theorem not_byClock_eventBaseline {e : StepSource} : ¬ f.ByClock windowEnd e .eventBaseline ↔
    f.clock windowEnd .eventBaseline ≤ f.clock windowEnd e := by
  rw [← Int.not_lt, not_iff_not, ByClock]
  refine or_iff_left ?_
  rintro ⟨-, hlt | ⟨t, u, -, hu, -⟩⟩
  · exact absurd hlt (by simp [StepSource.position])
  · cases hu

theorem not_analysisEnd_byClock {e : StepSource} : ¬ f.ByClock windowEnd .analysisEnd e ↔
    f.clock windowEnd e ≤ f.clock windowEnd .analysisEnd := by
  rw [← Int.not_lt, not_iff_not, ByClock]
  refine or_iff_left ?_
  rintro ⟨-, hlt | ⟨t, u, ht, -, -⟩⟩
  · exact absurd (position_le e) (Nat.not_le.2 hlt)
  · cases ht

theorem baselineFirst_iff :
    (∀ p ∈ f.sortedSteps windowEnd, p.2.label = .eventBaseline →
      (f.sortedSteps windowEnd).head? = some p) ↔
    (f.Gives windowEnd .eventBaseline → ∀ e, f.Gives windowEnd e →
      f.clock windowEnd .eventBaseline ≤ f.clock windowEnd e) := by
  constructor
  · intro h hbase e he
    obtain ⟨p, hp, hpbase⟩ := exists_made hbase
    obtain ⟨q, hq, rfl⟩ := exists_made he
    have hlabel : p.2.label = .eventBaseline := by
      rw [(madeOf_of_mem hp).label, hpbase]
      rfl
    have hhead := h p (mem_sortBy.2 hp) hlabel
    rw [Ascending.head?_eq_iff (fun _ _ => ByClock.asymm) sortedSteps_ascend] at hhead
    rw [← not_byClock_eventBaseline, ← hpbase]
    exact hhead.2 q (mem_sortBy.2 hq)
  · intro h p hp hlabel
    have hmade := madeOf_of_mem (mem_sortBy.1 hp)
    have hpbase := eq_eventBaseline (hmade.label ▸ hlabel)
    rw [Ascending.head?_eq_iff (fun _ _ => ByClock.asymm) sortedSteps_ascend]
    refine ⟨hp, fun q hq => ?_⟩
    rw [hpbase, not_byClock_eventBaseline]
    exact h (hpbase ▸ hmade.gives) _ (madeOf_of_mem (mem_sortBy.1 hq)).gives

theorem analysisEndLast_iff :
    (∃ p, (f.sortedSteps windowEnd).getLast? = some p ∧ p.2.label = .analysisEnd) ↔
    ∀ e, f.Gives windowEnd e → f.clock windowEnd e ≤ f.clock windowEnd .analysisEnd := by
  constructor
  · rintro ⟨p, hlast, hlabel⟩ e he
    rw [Ascending.getLast?_eq_iff (fun _ _ => ByClock.asymm) sortedSteps_ascend] at hlast
    have hmade := madeOf_of_mem (mem_sortBy.1 hlast.1)
    obtain ⟨q, hq, rfl⟩ := exists_made he
    rw [← not_analysisEnd_byClock, ← eq_analysisEnd (hmade.label ▸ hlabel)]
    exact hlast.2 q (mem_sortBy.2 hq)
  · intro h
    have hgives : f.Gives windowEnd .analysisEnd := trivial
    obtain ⟨p, hp, hpend⟩ := exists_made hgives
    refine ⟨p, ?_, ?_⟩
    · rw [Ascending.getLast?_eq_iff (fun _ _ => ByClock.asymm) sortedSteps_ascend]
      refine ⟨mem_sortBy.2 hp, fun q hq => ?_⟩
      rw [hpend, not_analysisEnd_byClock]
      exact h _ (madeOf_of_mem (mem_sortBy.1 hq)).gives
    · rw [(madeOf_of_mem hp).label, hpend]
      rfl

/-! ## Repeats -/

theorem exists_laterPath {t : String} (h : f.Gives windowEnd (.later t)) :
    ∃ x, f.laterPath t = some x := by
  obtain ⟨x, hx⟩ := exists_first h
  exact ⟨collapsePath x.afterPath, by rw [laterPath, hx, Option.map_some]⟩

/-- Only later changes are alike: the one of the cooldown has no path. -/
theorem later_of_alike {a b : StepSource} (ha : f.Gives windowEnd a) (hbefore : a.Before b)
    (hlabel : f.labelOf a = f.labelOf b) (hpath : f.pathOf a = f.pathOf b) :
    ∃ t u, a = .later t ∧ b = .later u ∧ t < u := by
  rcases hbefore with hlt | hlater
  · have hrank := congrArg StepLabel.rank hlabel
    rw [rank_labelOf, rank_labelOf] at hrank
    have hpos : a.position = 8 ∧ b.position = 9 := by
      split at hrank <;> split at hrank <;> omega
    cases a with
    | later t =>
      cases b with
      | changedAgain u =>
        obtain ⟨x, hx⟩ := exists_laterPath ha
        exact absurd (hx.symm.trans hpath) (by simp [pathOf])
      | _ => simp [StepSource.position] at hpos
    | _ => simp [StepSource.position] at hpos
  · exact hlater

/-- What the removal of repeats compares. -/
abbrev repeatKey (p : StepSource × ChronologyStep) : StepLabel × String × Option String :=
  (p.2.label, p.2.time, p.2.path)

theorem atText_eq_iff {t u : String} : atText t = atText u ↔ findingTime t = findingTime u := by
  constructor
  · intro h
    have hchars := congrArg String.toList h
    simp only [atText, String.toList_append, List.append_assoc, List.append_cancel_left_eq,
      List.append_cancel_right_eq] at hchars
    exact String.toList_injective hchars
  · intro h
    rw [atText, atText, h]

/-- What stands between two later changes of one time of day is another. -/
theorem later_between {a b : String} {e : StepSource}
    (hclock : f.clock windowEnd (.later a) = f.clock windowEnd (.later b))
    (hae : f.ByClock windowEnd (.later a) e) (heb : f.ByClock windowEnd e (.later b)) :
    ∃ c, e = .later c ∧ a < c ∧ c < b ∧ f.clock windowEnd e = f.clock windowEnd (.later a) := by
  have heq : f.clock windowEnd e = f.clock windowEnd (.later a) := by
    rcases hae with h | ⟨h, -⟩
    · rcases heb with h' | ⟨h', -⟩
      · omega
      · omega
    · exact h.symm
  have hbefore : (StepSource.later a).Before e := (hae.resolve_left heq.not_gt).2
  have hbefore' : e.Before (.later b) := (heb.resolve_left (by omega)).2
  rcases hbefore with hlt | ⟨t, c, hta, rfl, htc⟩
  · exact absurd hbefore'.position_le (Nat.not_le.2 hlt)
  · obtain rfl := StepSource.later.inj hta
    rcases hbefore' with hlt | ⟨t', u, hct, hub, htu⟩
    · exact absurd hlt (lt_irrefl _)
    · obtain rfl := StepSource.later.inj hct
      obtain rfl := StepSource.later.inj hub
      exact ⟨c, rfl, htc, htu, heq⟩

theorem isChain_iff_laterApart :
    ((f.sortedSteps windowEnd).IsChain fun p q => repeatKey p ≠ repeatKey q) ↔
      f.LaterApart windowEnd := by
  rw [Ascending.isChain_iff (fun _ _ => ByClock.asymm) sortedSteps_ascend]
  simp only [mem_sortBy]
  constructor
  · intro h a b ha hb hab htime hpath
    obtain ⟨p, hp, hpa⟩ := exists_made ha
    obtain ⟨q, hq, hqb⟩ := exists_made hb
    have hmp := madeOf_of_mem hp
    have hmq := madeOf_of_mem hq
    have htext : f.timeText windowEnd (.later a) = f.timeText windowEnd (.later b) :=
      atText_eq_iff.2 htime
    have hclock : f.clock windowEnd (.later a) = f.clock windowEnd (.later b) := by
      rw [clock, clock, htext]
      rfl
    have hkey : repeatKey p = repeatKey q := by
      rw [repeatKey, hmp.label, hmp.time, hmp.path, repeatKey, hmq.label, hmq.time, hmq.path, hpa, hqb,
        htext, pathOf, pathOf, hpath]
      rfl
    by_contra hnone
    refine h p hp q hq ?_ (fun r hr hbetween => ?_) hkey
    · rw [hpa, hqb]
      exact .inr ⟨hclock, .inr ⟨a, b, rfl, rfl, hab⟩⟩
    · rw [hpa, hqb] at hbetween
      obtain ⟨c, hrc, hac, hcb, heq⟩ := later_between hclock hbetween.1 hbetween.2
      have hgives := (madeOf_of_mem hr).gives
      rw [hrc] at hgives heq
      exact hnone ⟨c, hgives, hac, hcb, heq⟩
  · intro h p hp q hq hpq hnone hkey
    have hmp := madeOf_of_mem hp
    have hmq := madeOf_of_mem hq
    obtain ⟨hlabel, htime, hpath⟩ :
        p.2.label = q.2.label ∧ p.2.time = q.2.time ∧ p.2.path = q.2.path := by
      simpa [repeatKey] using hkey
    rw [hmp.label, hmq.label] at hlabel
    rw [hmp.time, hmq.time] at htime
    rw [hmp.path, hmq.path] at hpath
    have hclock : f.clock windowEnd p.1 = f.clock windowEnd q.1 := by
      rw [clock, clock, hlabel, htime]
    have hbefore : p.1.Before q.1 := (hpq.resolve_left hclock.not_lt).2
    obtain ⟨a, b, ha, hb, hab⟩ := later_of_alike hmp.gives hbefore hlabel hpath
    rw [ha, hb] at htime hpath
    obtain ⟨c, hc, hac, hcb, heq⟩ :=
      h a b (ha ▸ hmp.gives) (hb ▸ hmq.gives) hab (atText_eq_iff.1 htime) hpath
    obtain ⟨r, hr, hrc⟩ := exists_made hc
    refine hnone r hr ⟨?_, ?_⟩
    · rw [ha, hrc]
      exact .inr ⟨heq.symm, .inr ⟨a, c, rfl, rfl, hac⟩⟩
    · rw [hb, hrc]
      rw [ha, hb] at hclock
      exact .inr ⟨heq.trans hclock, .inr ⟨c, b, rfl, rfl, hcb⟩⟩

/-- Every step is shown iff no later changes are taken for repeats. -/
theorem unmerged_iff : (∀ p ∈ f.madeSteps windowEnd, p ∈ f.shownSteps windowEnd) ↔
    f.LaterApart windowEnd := by
  rw [← isChain_iff_laterApart,
    ← dedupByKey_subset_iff (Ascending.nodup (fun _ _ => ByClock.asymm) sortedSteps_ascend)]
  simp only [mem_sortBy]
  rfl

theorem shownSteps_eq (h : f.LaterApart windowEnd) : f.shownSteps windowEnd = f.sortedSteps windowEnd :=
  dedupByKey_eq_self_iff.2 (isChain_iff_laterApart.2 h)

/-! ## The changes that are told -/

/-- What the finding gives tells of the transition. -/
structure TellsOf (instant : String → Option DateTime) (f : RoutingFinding) (windowEnd : String)
    (e : StepSource) (t : PathTransition) : Prop where
  isChange : (f.labelOf e).isChange = true
  time : ∃ s, f.span windowEnd e = some s ∧ Within instant s t.timestamp
  path : if f.labelOf e = .absent then t.afterPath = []
    else t.afterPath ≠ [] ∧ ∀ x, f.pathOf e = some x → x = collapsePath t.afterPath

theorem exists_tells_iff {t : PathTransition} :
    (∃ p ∈ f.sortedSteps windowEnd, f.Tells instant windowEnd p t) ↔
      ∃ e, f.Gives windowEnd e ∧ f.TellsOf instant windowEnd e t := by
  constructor
  · rintro ⟨p, hp, hchange, htime, hpath⟩
    have hmade := madeOf_of_mem (mem_sortBy.1 hp)
    rw [hmade.label] at hchange hpath
    rw [hmade.path] at hpath
    exact ⟨p.1, hmade.gives, hchange, htime, hpath⟩
  · rintro ⟨e, hgives, hchange, htime, hpath⟩
    obtain ⟨p, hp, rfl⟩ := exists_made hgives
    have hmade := madeOf_of_mem hp
    rw [← hmade.label] at hchange hpath
    rw [← hmade.path] at hpath
    exact ⟨p, mem_sortBy.2 hp, hchange, htime, hpath⟩

theorem isChange_preFinding : (f.labelOf .preFinding).isChange = false := by
  rw [labelOf]
  split <;> rfl

theorem labelOf_exactReturn (u : String) : (f.labelOf (.exactReturn u)).isChange = true ∧
    f.labelOf (.exactReturn u) ≠ .absent := by
  rw [labelOf]
  split
  · exact ⟨rfl, nofun⟩
  · exact ⟨rfl, nofun⟩

theorem told_iff {t : PathTransition} :
    (∃ e, f.Gives windowEnd e ∧ f.TellsOf instant windowEnd e t) ↔ f.Told instant windowEnd t := by
  constructor
  · rintro ⟨e, hgives, hchange, ⟨s, hs, ht⟩, hpath⟩
    cases e with
    | eventBaseline => cases hchange
    | preFinding => exact absurd (isChange_preFinding.symm.trans hchange) (by decide)
    | windowEnd => cases hchange
    | analysisEnd => cases hchange
    | absence => exact .absence hgives hs ht hpath
    | firstReturn =>
      obtain rfl := Option.some.inj hs
      exact .firstReturn hgives.1 hgives.2 ht hpath.1 (hpath.2 _ rfl)
    | firstChange =>
      rw [span] at hs
      split at hs
      · cases hs
      · next hfirst =>
        obtain rfl := Option.some.inj hs
        exact .firstChange hgives.1 hgives.2 hfirst ht hpath.1 (hpath.2 _ rfl)
    | planeReturn u =>
      obtain rfl := Option.some.inj hs
      exact .planeReturn hgives ht hpath.1
    | equivalentReturn u =>
      obtain rfl := Option.some.inj hs
      exact .equivalentReturn hgives.1 hgives.2 ht hpath.1 (hpath.2 _ rfl)
    | exactReturn u =>
      obtain rfl := Option.some.inj hs
      rw [if_neg (labelOf_exactReturn u).2] at hpath
      exact .exactReturn hgives ht hpath.1 (hpath.2 _ rfl)
    | later u =>
      obtain rfl := Option.some.inj hs
      obtain ⟨x, hx⟩ := exists_laterPath hgives
      exact .later ht hpath.1 (hx.trans (congrArg some (hpath.2 x hx)))
    | changedAgain u =>
      obtain rfl := Option.some.inj hs
      exact .changedAgain hgives ht hpath.1
  · rintro h
    cases h with
    | absence habsence hspan ht hpath => exact ⟨.absence, habsence, rfl, ⟨_, hspan, ht⟩, hpath⟩
    | firstReturn habsence htime ht hpath hsame =>
      exact ⟨.firstReturn, ⟨habsence, htime⟩, rfl, ⟨_, rfl, ht⟩, hpath,
        fun x hx => Option.some.inj hx ▸ hsame⟩
    | firstChange habsence hsig hfirst ht hpath hsame =>
      exact ⟨.firstChange, ⟨habsence, hsig⟩, rfl, ⟨_, if_neg hfirst, ht⟩, hpath,
        fun x hx => Option.some.inj hx ▸ hsame⟩
    | planeReturn hu ht hpath => exact ⟨.planeReturn _, hu, rfl, ⟨_, rfl, ht⟩, hpath, nofun⟩
    | equivalentReturn hu hvis ht hpath hsame =>
      exact ⟨.equivalentReturn _, ⟨hu, hvis⟩, rfl, ⟨_, rfl, ht⟩, hpath,
        fun x hx => Option.some.inj hx ▸ hsame⟩
    | @exactReturn u hu ht hpath hsame =>
      refine ⟨.exactReturn u, hu, (labelOf_exactReturn u).1, ⟨_, rfl, ht⟩, ?_⟩
      rw [if_neg (labelOf_exactReturn u).2]
      exact ⟨hpath, fun x hx => Option.some.inj hx ▸ hsame⟩
    | @later u ht hpath hsame =>
      have hgives : f.Gives windowEnd (.later u) := by
        unfold laterPath at hsame
        obtain ⟨x, hx, -⟩ := Option.map_eq_some_iff.1 hsame
        exact ⟨x, List.mem_of_find?_eq_some hx, by simpa using List.find?_some hx⟩
      exact ⟨.later u, hgives, rfl, ⟨_, rfl, ht⟩, hpath,
        fun x hx => Option.some.inj (hx.symm.trans hsame)⟩
    | changedAgain hu ht hpath => exact ⟨.changedAgain _, hu, rfl, ⟨_, rfl, ht⟩, hpath, nofun⟩

/-- **The chronology is right iff** the times of day that are written are in the order of the instants,
with the baseline's among the first and that of the end of the analysis among the last, the finding has
what tells of each change, and no two later changes are alike in time of day and path with none between
them. -/
theorem chronologyRight_iff (instant : String → Option DateTime) (f : RoutingFinding)
    (windowEnd : String) : f.ChronologyRight instant windowEnd ↔ f.ChronologyFits instant windowEnd := by
  constructor
  · rintro ⟨hordered, hbase, hend, hcomplete, hunmerged⟩
    have hapart := unmerged_iff.1 hunmerged
    rw [shownSteps_eq hapart] at hordered hbase hend hcomplete
    exact {
      inOrder := (ordered_iff (R := fun a b => ∀ x y, f.start instant windowEnd a = some x →
        f.start instant windowEnd b = some y → x ≤ y)).1 hordered
      baseline := baselineFirst_iff.1 hbase
      analysisEnd := analysisEndLast_iff.1 hend
      told := fun s hs t ht hne => told_iff.1 (exists_tells_iff.1 (hcomplete s hs t ht hne))
      apart := hapart }
  · rintro ⟨hordered, hbase, hend, htold, hapart⟩
    have heq := shownSteps_eq hapart
    refine ⟨?_, ?_, ?_, fun s hs t ht hne => ?_, unmerged_iff.2 hapart⟩
    · rw [heq]
      exact (ordered_iff (R := fun a b => ∀ x y, f.start instant windowEnd a = some x →
        f.start instant windowEnd b = some y → x ≤ y)).2 hordered
    · rw [heq]
      exact baselineFirst_iff.2 hbase
    · rw [heq]
      exact analysisEndLast_iff.2 hend
    · rw [heq]
      exact exists_tells_iff.2 (told_iff.2 (htold s hs t ht hne))

end RoutingFinding

/-! ### Past midnight -/

/-- A route that changes before midnight, again after it, and returns. -/
def midnightStream : FindingStream where
  pfx := "10.0.0.0/24"
  baselinePath := [1916, 64512, 2603]
  changedPath := some [1916, 20080, 2603]
  finalPath := some [1916, 64512, 2603]
  withdrawn := false
  firstChangeUtc := some "2019-08-21T23:58:40Z"
  transitions := [
    ⟨"2019-08-21T23:58:40Z", "PathReplacement", [1916, 64512, 2603], [1916, 20080, 2603]⟩,
    ⟨"2019-08-22T00:03:10Z", "PathReplacement", [1916, 20080, 2603], [1916, 1299, 2603]⟩,
    ⟨"2019-08-22T00:09:30Z", "ReturnToBaseline", [1916, 1299, 2603], [1916, 64512, 2603]⟩]
  visibilityRestoredAt := none
  equivalentRouteRestoredAt := none
  reviewedPlaneRestoredAt := none
  exactBaselineRestoredAt := some "2019-08-22T00:09:30Z"
  evidenceRefs := ""

def midnightFinding : RoutingFinding where
  stableId := "rrc15-187-16-216-4-as-path-changed-2019-08-21T23:58:40Z"
  targetLabel := "TARGET (AS2603)"
  targetOriginAsns := [2603]
  targetName := "TARGET"
  eventBaselinePathSignature := "AS1916 AS64512 AS2603"
  earlierChange := none
  observerSite := "Sao Paulo, Brazil"
  observerRegion := "AMER"
  sourceFamily := "ris"
  collector := "rrc15"
  peerIp := "187.16.216.4"
  peerAsn := some 1916
  peerName := "name not reviewed"
  peerRole := ""
  peerAsnAmbiguous := false
  relationship := .indirect
  effect := .asPathChanged
  firstObserved := some "2019-08-21T23:58:40Z"
  lastObserved := some "2019-08-21T23:58:40Z"
  namedPathPlane := ""
  visibilityRestoredAt := none
  equivalentRouteRestoredAt := none
  reviewedPlaneRestoredAt := none
  exactBaselineRestoredAt := some "2019-08-22T00:09:30Z"
  stateAtWindowEnd := .baselineRestored
  stateAtAnalysisEnd := .none
  analysisEnd := "2019-08-22T01:00:00Z"
  observerStreamCount := 1
  distinctPrefixes := 1
  baselinePathSignature := "AS1916 AS64512 AS2603"
  changedPathSignature := "AS1916 AS20080 AS2603"
  finalPathSignature := "AS1916 AS64512 AS2603"
  exactPrefixes := ["10.0.0.0/24"]
  evidenceRefs := []
  scopeLimit := ""
  streams := [midnightStream]

/-- **Bug**: what happens after midnight comes first, and the chronology ends with the first change. -/
theorem not_chronologyRight :
    (routeChronology midnightFinding "2019-08-22T00:30:00Z").steps.map (·.label) =
      [.laterChange, .exactBaselineReturn, .eventWindowEnd, .analysisEnd, .eventBaseline,
        .firstChange] ∧
    ¬ midnightFinding.ChronologyRight parseUtcSeconds "2019-08-22T00:30:00Z" := by
  have hlabels : (midnightFinding.shownSteps "2019-08-22T00:30:00Z").map (·.2.label) =
      [.laterChange, .exactBaselineReturn, .eventWindowEnd, .analysisEnd, .eventBaseline,
        .firstChange] := by
    decide +kernel
  refine ⟨?_, fun h => ?_⟩
  · rw [routeChronology, List.map_map]
    exact hlabels
  · obtain ⟨p, hp, hlabel⟩ := h.analysisEndLast
    have hlast := congrArg List.getLast? hlabels
    rw [List.getLast?_map, hp, Option.map_some, hlabel] at hlast
    exact absurd hlast (by decide)

end Inim
