import Inim.Lib.Ascending
import Inim.Lib.FirstSeen
import Inim.Workbench.Chronology
/-!
# What the steps of a chronology are (`catalog/workbench.rs:3014-3331`)

`route_chronology` makes one step for each thing that its finding gives (`madeSteps_made`), and the sort
puts them in the order of their clocks, where of two that have one time of day the one made first comes
first (`sortedSteps_ascend`).

| here | there |
| --- | --- |
| `Gives`                | the conditions of the pushes |
| `labelOf`, `timeText`, `pathOf` | what is pushed |
| `clock`, `ByClock`     | the order of the sort |
-/

namespace Inim

open Std Inim.Lib

namespace StepSource

/-- The place in the order in which the steps are made. -/
def position : StepSource → Nat
  | eventBaseline => 0
  | preFinding => 1
  | absence => 2
  | firstChange => 3
  | firstReturn => 4
  | planeReturn _ => 5
  | equivalentReturn _ => 6
  | exactReturn _ => 7
  | later _ => 8
  | changedAgain _ => 9
  | windowEnd => 10
  | analysisEnd => 11

/-- Made before. The later changes are made in the order of the texts of their times. -/
def Before (a b : StepSource) : Prop :=
  a.position < b.position ∨ ∃ t u, a = later t ∧ b = later u ∧ t < u

theorem Before.position_le {a b : StepSource} (h : a.Before b) : a.position ≤ b.position := by
  rcases h with h | ⟨t, u, rfl, rfl, -⟩
  · exact h.le
  · exact le_rfl

theorem Before.asymm {a b : StepSource} (h : a.Before b) : ¬ b.Before a := by
  intro hba
  rcases h with h | ⟨t, u, rfl, rfl, htu⟩
  · exact absurd hba.position_le (by omega)
  · rcases hba with hlt | ⟨u', t', hu, ht, hut⟩
    · exact lt_irrefl _ hlt
    · obtain rfl := later.inj hu
      obtain rfl := later.inj ht
      exact lt_asymm htu hut

end StepSource

namespace RoutingFinding
variable (f : RoutingFinding) (windowEnd : String)

/-! ## What a finding has to show -/

def Gives : StepSource → Prop
  | .eventBaseline => f.eventSig ≠ "—"
  | .preFinding =>
    f.eventSig ≠ "—" ∧ f.eventSig ≠ f.baselinePathSignature ∧ f.baselinePathSignature ≠ "—"
  | .absence => f.isAbsence = true
  | .firstReturn => f.isAbsence = true ∧ f.replacement.1 ≠ ""
  | .firstChange => f.isAbsence = false ∧ f.changedPathSignature ≠ "—"
  | .planeReturn t => f.reviewedPlaneRestoredAt = some t
  | .equivalentReturn t => f.equivalentRouteRestoredAt = some t ∧ f.visibilityRestoredAt ≠ some t
  | .exactReturn t => f.exactBaselineRestoredAt = some t
  | .later t => ∃ x ∈ f.laterTransitions, x.timestamp = t
  | .changedAgain t => f.stateAtAnalysisEnd = .stillChangingBeforeAnalysisEnd t
  | .windowEnd => windowEnd ≠ ""
  | .analysisEnd => True

def labelOf : StepSource → StepLabel
  | .eventBaseline => .eventBaseline
  | .preFinding => if f.isAbsence then .preWithdrawalRoute else .preFindingRoute
  | .absence => .absent
  | .firstReturn => .firstRouteAfterReturn
  | .firstChange => .firstChange
  | .planeReturn _ => .reviewedPlaneReturn
  | .equivalentReturn _ => .equivalentRouteReturn
  | .exactReturn _ =>
    if f.eventSig = f.baselinePathSignature then .exactBaselineReturn else .preFindingRouteReturn
  | .later _ | .changedAgain _ => .laterChange
  | .windowEnd => .eventWindowEnd
  | .analysisEnd => .analysisEnd

/-- The time that is written. -/
def timeText : StepSource → String
  | .eventBaseline =>
    if f.eventSig ≠ f.baselinePathSignature then "observed at the event start"
    else f.untilText "observed at the event start"
  | .preFinding => f.untilText "observed before the change"
  | .absence => f.absentTime
  | .firstReturn => "from " ++ findingTime f.replacement.1 ++ " UTC"
  | .firstChange => if f.firstTime = "" then "the observed time" else atText f.firstTime
  | .exactReturn t => f.exactTime t
  | .planeReturn t | .equivalentReturn t | .later t | .changedAgain t => atText t
  | .windowEnd => atText windowEnd
  | .analysisEnd => atText f.analysisEnd

/-- The path of a later change: that of the first transition of its time. -/
def laterPath (t : String) : Option String :=
  (f.laterTransitions.find? (·.timestamp = t)).map (collapsePath ·.afterPath)

def pathOf : StepSource → Option String
  | .eventBaseline => some f.eventSig
  | .preFinding | .exactReturn _ => some f.baselinePathSignature
  | .firstReturn => some f.replacement.2
  | .firstChange | .equivalentReturn _ => some f.changedPathSignature
  | .later t => f.laterPath t
  | .absence | .planeReturn _ | .changedAgain _ => none
  | .windowEnd | .analysisEnd => f.finalPath?

/-- The step is made from what the finding gives. -/
structure MadeOf (p : StepSource × ChronologyStep) : Prop where
  gives : f.Gives windowEnd p.1
  label : p.2.label = f.labelOf p.1
  time : p.2.time = f.timeText windowEnd p.1
  path : p.2.path = f.pathOf p.1

/-- The steps of the positions from `lo` to `hi`. -/
structure Made (lo hi : Nat) (l : List (StepSource × ChronologyStep)) : Prop where
  madeOf : ∀ p ∈ l, f.MadeOf windowEnd p
  range : ∀ p ∈ l, lo ≤ p.1.position ∧ p.1.position ≤ hi
  ascends : l.Pairwise fun p q => p.1.Before q.1
  all : ∀ e, lo ≤ e.position → e.position ≤ hi → f.Gives windowEnd e → ∃ p ∈ l, p.1 = e

variable {f windowEnd}

namespace Made
variable {lo mid hi : Nat} {l l' : List (StepSource × ChronologyStep)}

theorem append (h : f.Made windowEnd lo mid l) (h' : f.Made windowEnd (mid + 1) hi l') (hlo : lo ≤ mid)
    (hhi : mid ≤ hi) : f.Made windowEnd lo hi (l ++ l') where
  madeOf p hp := (List.mem_append.1 hp).elim (h.madeOf p) (h'.madeOf p)
  range p hp := by
    rcases List.mem_append.1 hp with hp | hp
    · have hr := h.range p hp
      omega
    · have hr := h'.range p hp
      omega
  ascends := by
    refine List.pairwise_append.2 ⟨h.ascends, h'.ascends, fun p hp q hq => .inl ?_⟩
    have hr := h.range p hp
    have hr' := h'.range q hq
    omega
  all e hle hge hgives := by
    rcases Nat.lt_or_ge mid e.position with hlt | hge'
    · obtain ⟨p, hp, rfl⟩ := h'.all e hlt hge hgives
      exact ⟨p, List.mem_append_right _ hp, rfl⟩
    · obtain ⟨p, hp, rfl⟩ := h.all e hle hge' hgives
      exact ⟨p, List.mem_append_left _ hp, rfl⟩

/-- Nothing is given at the position. -/
theorem nil (h : ∀ e, e.position = lo → ¬ f.Gives windowEnd e) : f.Made windowEnd lo lo [] where
  madeOf _ hp := absurd hp List.not_mem_nil
  range _ hp := absurd hp List.not_mem_nil
  ascends := .nil
  all e hle hge hgives := absurd hgives (h e (by omega))

/-- Nothing is given before. -/
theorem skip (h : f.Made windowEnd lo mid []) (h' : f.Made windowEnd (mid + 1) hi l) (hlo : lo ≤ mid)
    (hhi : mid ≤ hi) : f.Made windowEnd lo hi l :=
  h.append h' hlo hhi

/-- One step, where nothing else has its position. -/
theorem single {e : StepSource} {s : ChronologyStep} (hpos : e.position = lo)
    (h : f.MadeOf windowEnd (e, s))
    (honly : ∀ e', e'.position = lo → f.Gives windowEnd e' → e' = e) :
    f.Made windowEnd lo lo [(e, s)] where
  madeOf p hp := by
    rwa [List.mem_singleton.1 hp]
  range p hp := by
    rw [List.mem_singleton.1 hp]
    exact ⟨hpos.ge, hpos.le⟩
  ascends := List.pairwise_singleton _ _
  all e' hle hge hgives := ⟨(e, s), List.mem_singleton_self _, (honly e' (by omega) hgives).symm⟩

theorem cons {e : StepSource} {s : ChronologyStep} (hpos : e.position = lo)
    (h : f.MadeOf windowEnd (e, s)) (honly : ∀ e', e'.position = lo → f.Gives windowEnd e' → e' = e)
    (h' : f.Made windowEnd (lo + 1) hi l) (hhi : lo ≤ hi) : f.Made windowEnd lo hi ((e, s) :: l) :=
  (single hpos h honly).append h' le_rfl hhi

end Made

/-! ### The parts -/

theorem eq_dash_of_eventSig (h : f.eventSig = "—") : f.baselinePathSignature = "—" := by
  unfold eventSig at h
  split at h
  · exact h
  · next hsig => exact absurd (.inr h) hsig

theorem baselineSteps_made : f.Made windowEnd 0 1 f.baselineSteps := by
  unfold baselineSteps
  by_cases hsig : f.eventSig = "—"
  · rw [if_neg (not_not.2 hsig), if_neg (not_not.2 (eq_dash_of_eventSig hsig))]
    refine Made.skip (.nil fun e hpos hgives => ?_) (.nil fun e hpos hgives => ?_) le_rfl (by decide)
    · cases e with
      | eventBaseline => exact hgives hsig
      | _ => cases hpos
    · cases e with
      | preFinding => exact hgives.1 hsig
      | _ => cases hpos
  · rw [if_pos hsig]
    refine .cons rfl ⟨hsig, rfl, rfl, rfl⟩ (fun e hpos _ => ?_) ?_ (by decide)
    · cases e with
      | eventBaseline => rfl
      | _ => cases hpos
    split
    · next hpre =>
      refine .single rfl ⟨⟨hsig, hpre⟩, rfl, rfl, rfl⟩ fun e hpos _ => ?_
      cases e with
      | preFinding => rfl
      | _ => cases hpos
    · next hpre =>
      refine .nil fun e hpos hgives => ?_
      cases e with
      | preFinding => exact hpre hgives.2
      | _ => cases hpos

theorem changeSteps_made : f.Made windowEnd 2 4 f.changeSteps := by
  unfold changeSteps
  cases habs : f.isAbsence with
  | true =>
    have hchange : f.Made windowEnd 3 3 [] := by
      refine .nil fun e hpos hgives => ?_
      cases e with
      | firstChange => exact absurd (habs.symm.trans hgives.1) (by decide)
      | _ => cases hpos
    refine .cons rfl ⟨habs, rfl, rfl, rfl⟩ (fun e hpos _ => ?_) (hchange.skip ?_ le_rfl (by decide))
      (by decide)
    · cases e with
      | absence => rfl
      | _ => cases hpos
    split
    · next hret =>
      refine .single rfl ⟨⟨habs, hret⟩, rfl, rfl, rfl⟩ fun e hpos _ => ?_
      cases e with
      | firstReturn => rfl
      | _ => cases hpos
    · next hret =>
      refine .nil fun e hpos hgives => ?_
      cases e with
      | firstReturn => exact hret hgives.2
      | _ => cases hpos
  | false =>
    have habsence : f.Made windowEnd 2 2 [] := by
      refine .nil fun e hpos hgives => ?_
      cases e with
      | absence => exact absurd (habs.symm.trans hgives) (by decide)
      | _ => cases hpos
    have hreturn : f.Made windowEnd 4 4 [] := by
      refine .nil fun e hpos hgives => ?_
      cases e with
      | firstReturn => exact absurd (habs.symm.trans hgives.1) (by decide)
      | _ => cases hpos
    refine habsence.skip ?_ le_rfl (by decide)
    rw [if_neg Bool.false_ne_true]
    split
    · next hsig =>
      refine .cons rfl ⟨⟨habs, hsig⟩, rfl, rfl, rfl⟩ (fun e hpos _ => ?_) hreturn (by decide)
      cases e with
      | firstChange => rfl
      | _ => cases hpos
    · next hsig =>
      refine Made.skip (.nil fun e hpos hgives => ?_) hreturn le_rfl (by decide)
      cases e with
      | firstChange => exact hsig hgives.2
      | _ => cases hpos

theorem planeSteps_made : f.Made windowEnd 5 5 f.planeSteps := by
  unfold planeSteps
  split
  · next t ht =>
    refine .single rfl ⟨ht, rfl, rfl, rfl⟩ fun e hpos hgives => ?_
    cases e with
    | planeReturn u => rw [Option.some.inj (hgives.symm.trans ht)]
    | _ => cases hpos
  · next hnone =>
    refine .nil fun e hpos hgives => ?_
    cases e with
    | planeReturn u => cases hgives.symm.trans hnone
    | _ => cases hpos

theorem equivalentSteps_made : f.Made windowEnd 6 6 f.equivalentSteps := by
  unfold equivalentSteps
  split
  · next t ht =>
    split
    · next hvis =>
      refine .single rfl ⟨⟨ht, hvis⟩, rfl, rfl, rfl⟩ fun e hpos hgives => ?_
      cases e with
      | equivalentReturn u => rw [Option.some.inj (hgives.1.symm.trans ht)]
      | _ => cases hpos
    · next hvis =>
      refine .nil fun e hpos hgives => ?_
      cases e with
      | equivalentReturn u =>
        obtain rfl := Option.some.inj (hgives.1.symm.trans ht)
        exact hvis hgives.2
      | _ => cases hpos
  · next hnone =>
    refine .nil fun e hpos hgives => ?_
    cases e with
    | equivalentReturn u => cases hgives.1.symm.trans hnone
    | _ => cases hpos

theorem exactSteps_made : f.Made windowEnd 7 7 f.exactSteps := by
  unfold exactSteps
  split
  · next t ht =>
    refine .single rfl ⟨ht, rfl, rfl, rfl⟩ fun e hpos hgives => ?_
    cases e with
    | exactReturn u => rw [Option.some.inj (hgives.symm.trans ht)]
    | _ => cases hpos
  · next hnone =>
    refine .nil fun e hpos hgives => ?_
    cases e with
    | exactReturn u => cases hgives.symm.trans hnone
    | _ => cases hpos

/-! ### The later changes -/

theorem afterPath_of_mem_later {t : PathTransition} (h : t ∈ f.laterTransitions) :
    t.afterPath ≠ [] := by
  obtain ⟨s, -, ht⟩ := List.mem_flatMap.1 h
  have hlater := List.of_mem_filter ht
  unfold isLater at hlater
  rintro hnil
  simp [hnil] at hlater

/-- An entry is the first transition of its time. -/
theorem mem_laterEntries {t : PathTransition} :
    t ∈ f.laterEntries ↔ f.laterTransitions.find? (·.timestamp = t.timestamp) = some t := by
  unfold laterEntries
  rw [List.mem_filter, mem_sortBy, mem_keepFirst_iff_find?]
  refine and_iff_left_of_imp fun h => ?_
  have hpath := afterPath_of_mem_later (List.mem_of_find?_eq_some h)
  simpa using hpath

theorem laterEntries_ascend : f.laterEntries.Pairwise fun t u => t.timestamp < u.timestamp := by
  have hne : (keepFirst (·.timestamp) f.laterTransitions).Pairwise
      fun t u : PathTransition => t.timestamp ≠ u.timestamp :=
    List.pairwise_map.1 (keepFirst_nodup PathTransition.timestamp f.laterTransitions)
  have hsorted : (sortBy (compareOn PathTransition.timestamp) _).Pairwise _ := sortBy_ascends hne
  refine (hsorted.imp fun {t u} h => ?_).filter _
  rcases h with hlt | ⟨heq, hne⟩
  · exact compare_lt_iff_lt.1 hlt
  · exact absurd (LawfulEqCmp.eq_of_compare (show compare t.timestamp u.timestamp = .eq from heq)) hne

theorem exists_first {t : String} (h : ∃ x ∈ f.laterTransitions, x.timestamp = t) :
    ∃ x, f.laterTransitions.find? (·.timestamp = t) = some x := by
  obtain ⟨y, hy, hyt⟩ := h
  exact Option.isSome_iff_exists.1 (List.find?_isSome.2 ⟨y, hy, by simpa using hyt⟩)

theorem exists_entry {t : String} (h : ∃ x ∈ f.laterTransitions, x.timestamp = t) :
    ∃ x ∈ f.laterEntries, x.timestamp = t := by
  obtain ⟨x, hx⟩ := exists_first h
  obtain rfl : x.timestamp = t := by simpa using List.find?_some hx
  exact ⟨x, mem_laterEntries.2 hx, rfl⟩

theorem laterSteps_made : f.Made windowEnd 8 9 f.laterSteps := by
  unfold laterSteps
  refine Made.append (?_ : f.Made windowEnd 8 8 _) ?_ le_rfl (by decide)
  · refine ⟨fun p hp => ?_, fun p hp => ?_, ?_, fun e hlo hhi hgives => ?_⟩
    · obtain ⟨t, ht, rfl⟩ := List.mem_map.1 hp
      have hfirst := mem_laterEntries.1 ht
      refine ⟨⟨t, List.mem_of_find?_eq_some hfirst, rfl⟩, rfl, rfl, ?_⟩
      show some (collapsePath t.afterPath) = f.laterPath t.timestamp
      rw [laterPath, hfirst, Option.map_some]
    · obtain ⟨t, -, rfl⟩ := List.mem_map.1 hp
      exact ⟨le_rfl, le_rfl⟩
    · exact List.pairwise_map.2 (laterEntries_ascend.imp fun htu => .inr ⟨_, _, rfl, rfl, htu⟩)
    · have hpos : e.position = 8 := by omega
      cases e with
      | later t =>
        obtain ⟨x, hx, rfl⟩ := exists_entry hgives
        exact ⟨_, List.mem_map_of_mem hx, rfl⟩
      | _ => cases hpos
  · split
    · next t ht =>
      refine .single rfl ⟨ht, rfl, rfl, rfl⟩ fun e hpos hgives => ?_
      cases e with
      | changedAgain u =>
        rw [CooldownOutcome.stillChangingBeforeAnalysisEnd.inj (hgives.symm.trans ht)]
      | _ => cases hpos
    · next hnot =>
      refine .nil fun e hpos hgives => ?_
      cases e with
      | changedAgain u => exact hnot u hgives
      | _ => cases hpos

theorem endSteps_made : f.Made windowEnd 10 11 (f.endSteps windowEnd) := by
  unfold endSteps
  refine Made.append (?_ : f.Made windowEnd 10 10 _)
    (.single rfl ⟨trivial, rfl, rfl, rfl⟩ fun e hpos _ => ?_) le_rfl (by decide)
  · split
    · next hend =>
      refine .single rfl ⟨hend, rfl, rfl, rfl⟩ fun e hpos _ => ?_
      cases e with
      | windowEnd => rfl
      | _ => cases hpos
    · next hend =>
      refine .nil fun e hpos hgives => ?_
      cases e with
      | windowEnd => exact hend hgives
      | _ => cases hpos
  · cases e with
    | analysisEnd => rfl
    | _ => cases hpos

/-- **What is made**: a step for each thing the finding gives, in the order of their positions. -/
theorem madeSteps_made : f.Made windowEnd 0 11 (f.madeSteps windowEnd) := by
  have hlater : f.Made windowEnd 8 11 _ :=
    laterSteps_made.append endSteps_made (by decide) (by decide)
  have hexact : f.Made windowEnd 7 11 _ := exactSteps_made.append hlater (by decide) (by decide)
  have hequivalent : f.Made windowEnd 6 11 _ :=
    equivalentSteps_made.append hexact (by decide) (by decide)
  have hplane : f.Made windowEnd 5 11 _ := planeSteps_made.append hequivalent (by decide) (by decide)
  have hchange : f.Made windowEnd 2 11 _ := changeSteps_made.append hplane (by decide) (by decide)
  exact baselineSteps_made.append hchange (by decide) (by decide)

theorem position_le (e : StepSource) : e.position ≤ 11 := by
  cases e <;> simp [StepSource.position]

theorem exists_made {e : StepSource} (h : f.Gives windowEnd e) :
    ∃ p ∈ f.madeSteps windowEnd, p.1 = e :=
  madeSteps_made.all e (Nat.zero_le _) (position_le e) h

/-! ## The order of the sort -/

/-- The seconds of the day that a step is sorted by. -/
def clock (f : RoutingFinding) (windowEnd : String) (e : StepSource) : Int :=
  sortSeconds (f.labelOf e) (f.timeText windowEnd e)

/-- By the time of day, and then as they are made. -/
def ByClock (f : RoutingFinding) (windowEnd : String) (a b : StepSource) : Prop :=
  f.clock windowEnd a < f.clock windowEnd b ∨ f.clock windowEnd a = f.clock windowEnd b ∧ a.Before b

theorem ByClock.asymm {a b : StepSource} (h : f.ByClock windowEnd a b) : ¬ f.ByClock windowEnd b a := by
  rintro (hlt | ⟨heq, hba⟩)
  · rcases h with h | ⟨h, -⟩
    · exact lt_asymm h hlt
    · exact hlt.ne h.symm
  · rcases h with h | ⟨-, hab⟩
    · exact h.ne heq.symm
    · exact hab.asymm hba

/-- The ranks of the labels are the positions, but for the two kinds of a later change. -/
theorem rank_labelOf (e : StepSource) :
    (f.labelOf e).rank = if 9 ≤ e.position then e.position - 1 else e.position := by
  cases e with
  | preFinding =>
    show (if f.isAbsence then StepLabel.preWithdrawalRoute else .preFindingRoute).rank = 1
    split <;> rfl
  | exactReturn t =>
    show (if f.eventSig = f.baselinePathSignature then StepLabel.exactBaselineReturn
      else .preFindingRouteReturn).rank = 7
    split <;> rfl
  | _ => rfl

theorem before_of_rank {a b : StepSource} (h : (f.labelOf a).rank < (f.labelOf b).rank) :
    a.Before b := by
  rw [rank_labelOf, rank_labelOf] at h
  left
  split at h <;> split at h <;> omega

instance : TransCmp stepOrder :=
  inferInstanceAs (TransCmp (compareLex (compareOn fun p : StepSource × ChronologyStep => p.2.seconds)
    (compareOn (·.2.label.rank))))

/-- The sort goes by the clock. -/
theorem byClock_of_stepOrder {p q : StepSource × ChronologyStep} (hp : f.MadeOf windowEnd p)
    (hq : f.MadeOf windowEnd q)
    (h : stepOrder p q = .lt ∨ stepOrder p q = .eq ∧ p.1.Before q.1) : f.ByClock windowEnd p.1 q.1 := by
  have hseconds {p : StepSource × ChronologyStep} (hp : f.MadeOf windowEnd p) :
      p.2.seconds = f.clock windowEnd p.1 := by
    rw [ChronologyStep.seconds, hp.label, hp.time, clock]
  rw [ByClock, ← hseconds hp, ← hseconds hq]
  rcases h with hlt | ⟨heq, hbefore⟩
  · rcases Ordering.then_eq_lt.1 hlt with hsec | ⟨hsec, hrank⟩
    · exact .inl (compare_lt_iff_lt.1 hsec)
    · refine .inr ⟨LawfulEqCmp.eq_of_compare (show compare p.2.seconds q.2.seconds = .eq from hsec),
        before_of_rank (f := f) ?_⟩
      rw [← hp.label, ← hq.label]
      exact compare_lt_iff_lt.1 hrank
  · have hsec := (Ordering.then_eq_eq.1 heq).1
    exact .inr ⟨LawfulEqCmp.eq_of_compare (show compare p.2.seconds q.2.seconds = .eq from hsec),
      hbefore⟩

/-- The steps in the order they are shown in, the repeats among them. -/
abbrev sortedSteps (f : RoutingFinding) (windowEnd : String) : List (StepSource × ChronologyStep) :=
  sortBy stepOrder (f.madeSteps windowEnd)

theorem sortedSteps_ascend :
    (f.sortedSteps windowEnd).Pairwise fun p q => f.ByClock windowEnd p.1 q.1 := by
  refine (sortBy_ascends madeSteps_made.ascends).imp_of_mem fun hp hq h => ?_
  exact byClock_of_stepOrder (madeSteps_made.madeOf _ (mem_sortBy.1 hp))
    (madeSteps_made.madeOf _ (mem_sortBy.1 hq)) h

/-- What holds along the sorted steps holds of what the finding gives, by the clock. -/
theorem sortedSteps_pairwise_iff
    {R : StepSource × ChronologyStep → StepSource × ChronologyStep → Prop} :
    (f.sortedSteps windowEnd).Pairwise R ↔ ∀ p ∈ f.madeSteps windowEnd, ∀ q ∈ f.madeSteps windowEnd,
      f.ByClock windowEnd p.1 q.1 → R p q := by
  rw [Ascending.pairwise_iff (fun _ _ => ByClock.asymm) sortedSteps_ascend]
  simp only [mem_sortBy]

end RoutingFinding

end Inim
