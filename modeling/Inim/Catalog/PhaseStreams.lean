import Inim.Catalog.RunWindows
import Inim.Catalog.Staged
import Inim.Lifecycle.Streams

/-!
# Phases and streams (`catalog/phase_summary.rs:64-296`)

Each transition is meant to count in the phase whose half-open interval of instants contains it, and
`active_streams_entering` to be the number of streams with an active route instance at the start of a
phase. Times are compared as texts, and `write_transitions` ends them in `+00:00` where the phases end
in `Z`; visibility is walked per stream, so the withdrawal of one path id hides the stream, and a
stream is visible until its first withdrawal, announced or not.

| here | there |
| --- | --- |
| `phaseRow`, `streamLabel` | a row of `run_transitions` (`:64-89`), as `write_transitions` and the import leave it |
| `AnalysedRun`            | a run: its observations, and what is derived of them |
| `walkStep`, `walkPhases` | the visibility walk (`:264-286`) |
| `visibleEntering`, `activeStreamsEntering` | its result for each phase (`:240-287`) |
| `ActiveAt`               | the stream has a route instance in the route store |

`phaseLaw_iff` gives the condition under which phases and streams are counted as they should be.
-/

namespace Inim

open Std Inim.Lib

/-! ## The rows of a run -/

/-- The text a stream is known by. -/
def streamLabel (s : ObserverPrefixKey) : String :=
  s.collector ++ "|" ++ s.peerIp.display ++ "|" ++ s.pfx

def phaseRow (toRfc3339 : DateTime → String) (t : RouteTransition) : RunTransition where
  kind := transitionKindLabel t.kind
  occurredUtc := toRfc3339 t.to_.timestamp
  stream := streamLabel t.key.observerPrefixKey

/-- The columns that are read of a row. -/
def RunTransitionRecord.phaseRow (r : RunTransitionRecord) : RunTransition where
  kind := r.kind
  occurredUtc := r.occurredUtc
  stream := r.collector ++ "|" ++ r.peerIp ++ "|" ++ r.pfx

/-- What the artifact of a run is imported as. -/
theorem phaseRow_transitionRecord (toRfc3339 : DateTime → String) (runId seq : Nat)
    (t : RouteTransition) :
    (runTransition runId (transitionRecord toRfc3339 seq t)).phaseRow = phaseRow toRfc3339 t := rfl

/-- One analysis. -/
structure AnalysedRun where
  eventStart : DateTime
  eventEnd : DateTime
  cooldownEnd : DateTime
  targets : List UInt32
  pred : TransitPredicate
  observations : List RouteObservation

namespace AnalysedRun
variable (run : AnalysedRun)

def transitions : List RouteTransition :=
  transitionsAfter run.eventStart run.eventEnd run.cooldownEnd run.observations

def cohort : FrozenCohort := freezeCohort run.targets run.pred run.observations

/-- The streams with a lifecycle. -/
def streams : List ObserverPrefixKey := lifecycleStreams run.transitions run.cohort

def rows (toRfc3339 : DateTime → String) : List RunTransition :=
  run.transitions.map (phaseRow toRfc3339)

/-- The route store before `t`. -/
def statesBefore (t : DateTime) : RouteKey → Option RouteState :=
  (Recon.run run.eventStart run.eventEnd run.cooldownEnd
    (run.observations.filter (·.timestamp < t))).store.states

/-- The stream has an active route instance at `t`. -/
def ActiveAt (t : DateTime) (s : ObserverPrefixKey) : Prop :=
  ∃ o ∈ run.observations, o.stream = s ∧ (run.statesBefore t (observationKey o)).isSome

instance (t : DateTime) (s : ObserverPrefixKey) : Decidable (run.ActiveAt t s) :=
  inferInstanceAs (Decidable (∃ o ∈ run.observations, _))

def activeStreams (t : DateTime) : List ObserverPrefixKey :=
  run.streams.filter fun s => run.ActiveAt t s

end AnalysedRun

/-! ## The visibility walk -/

def returnKinds : List String := ["Announcement", "Restoration", "ReturnToBaseline"]

def walkStep (visible : Finset String) (t : RunTransition) : Finset String :=
  if t.kind = "Withdrawal" then visible.erase t.stream
  else if t.kind ∈ returnKinds then insert t.stream visible
  else visible

/-- The phases as listed; what an earlier one has passed is not looked at again. -/
def walkPhases : List CaseStudyPhase → List RunTransition → Finset String → List (Finset String)
  | [], _, _ => []
  | p :: ps, rest, visible =>
    let visible := (rest.takeWhile fun t => t.occurredUtc < p.startUtc).foldl walkStep visible
    visible :: walkPhases ps (rest.dropWhile fun t => t.occurredUtc < p.startUtc) visible

/-- Every stream starts visible. -/
def visibleEntering (phases : List CaseStudyPhase) (streams : List String)
    (rows : List RunTransition) : List (Finset String) :=
  walkPhases phases (sortBy (compareOn (·.occurredUtc)) rows)
    (streams ++ rows.map (·.stream)).toFinset

def activeStreamsEntering (phases : List CaseStudyPhase) (streams : List String)
    (rows : List RunTransition) : List Nat :=
  (visibleEntering phases streams rows).map Finset.card

/-- The rows the walk has passed when it reaches the `i`th phase. -/
def passed (phases : List CaseStudyPhase) (i : Nat) (t : RunTransition) : Bool :=
  (phases.take (i + 1)).any fun p => t.occurredUtc < p.startUtc

/-- The row hides the stream or shows it. -/
def RunTransition.Marks (x : String) (t : RunTransition) : Prop :=
  t.stream = x ∧ (t.kind = "Withdrawal" ∨ t.kind ∈ returnKinds)

instance (x : String) (t : RunTransition) : Decidable (t.Marks x) :=
  inferInstanceAs (Decidable (_ ∧ (_ ∨ _)))

/-- The kind of the last row that does. -/
def lastMark (rows : List RunTransition) (x : String) : Option String :=
  (rows.filter fun t => t.Marks x).getLast?.map (·.kind)

theorem lastMark_concat (rows : List RunTransition) (t : RunTransition) (x : String) :
    lastMark (rows ++ [t]) x = if t.Marks x then some t.kind else lastMark rows x := by
  unfold lastMark
  rw [List.filter_append]
  by_cases h : t.Marks x
  · rw [if_pos h, List.filter_cons_of_pos (by simpa using h), List.filter_nil,
      List.getLast?_concat]
    rfl
  · rw [if_neg h, List.filter_cons_of_neg (by simpa using h), List.filter_nil,
      List.append_nil]

theorem mem_walkStep {visible : Finset String} {t : RunTransition} {x : String} :
    x ∈ walkStep visible t ↔ if t.Marks x then t.kind ≠ "Withdrawal" else x ∈ visible := by
  unfold walkStep RunTransition.Marks
  by_cases hx : t.stream = x
  · subst hx
    by_cases hw : t.kind = "Withdrawal"
    · simp [hw]
    · by_cases hr : t.kind ∈ returnKinds <;> simp [hw, hr]
  · by_cases hw : t.kind = "Withdrawal"
    · simp [hx, hw, Ne.symm hx]
    · by_cases hr : t.kind ∈ returnKinds <;> simp [hx, hw, hr, Ne.symm hx]

/-- What is visible after some rows is told by the last mark of each stream. -/
theorem mem_foldl_walkStep {visible : Finset String} (rows : List RunTransition) {x : String} :
    x ∈ rows.foldl walkStep visible ↔
      (lastMark rows x).elim (x ∈ visible) (· ≠ "Withdrawal") := by
  induction rows using List.reverseRecOn with
  | nil => exact Iff.rfl
  | append_singleton rows t ih =>
    rw [List.foldl_append, List.foldl_cons, List.foldl_nil, mem_walkStep, lastMark_concat]
    split
    · exact Iff.rfl
    · exact ih

/-- A sorted list is passed up to a bound. -/
theorem takeWhile_eq_filter {b : String} {rows : List RunTransition}
    (h : rows.Pairwise fun s t => s.occurredUtc ≤ t.occurredUtc) :
    (rows.takeWhile fun t => t.occurredUtc < b) = rows.filter fun t => t.occurredUtc < b := by
  induction rows with
  | nil => rfl
  | cons t rows ih =>
    obtain ⟨ht, hrows⟩ := List.pairwise_cons.1 h
    by_cases hlt : t.occurredUtc < b
    · rw [List.takeWhile_cons_of_pos (by simpa using hlt),
        List.filter_cons_of_pos (by simpa using hlt), ih hrows]
    · rw [List.takeWhile_cons_of_neg (by simpa using hlt), eq_comm, List.filter_eq_nil_iff]
      intro s hs hsb
      have hle : t.occurredUtc ≤ s.occurredUtc := by
        rcases List.mem_cons.1 hs with rfl | hs
        · exact le_rfl
        · exact ht s hs
      exact hlt (hle.trans_lt (of_decide_eq_true hsb))

/-- What is left has not been passed. -/
theorem not_lt_of_mem_dropWhile {b : String} {rows : List RunTransition}
    (h : rows.Pairwise fun s t => s.occurredUtc ≤ t.occurredUtc) {t : RunTransition}
    (ht : t ∈ rows.dropWhile fun t => t.occurredUtc < b) : ¬ t.occurredUtc < b := by
  induction rows with
  | nil => cases ht
  | cons s rows ih =>
    obtain ⟨hs, hrows⟩ := List.pairwise_cons.1 h
    by_cases hlt : s.occurredUtc < b
    · rw [List.dropWhile_cons_of_pos (by simpa using hlt)] at ht
      exact ih hrows ht
    · rw [List.dropWhile_cons_of_neg (by simpa using hlt)] at ht
      rcases List.mem_cons.1 ht with rfl | ht
      · exact hlt
      · exact fun htb => hlt ((hs t ht).trans_lt htb)

/-- At a phase the walk stands where it would after the rows below that start or an earlier one. -/
theorem walkPhases_getElem? {ps : List CaseStudyPhase} {rows : List RunTransition}
    (h : rows.Pairwise fun s t => s.occurredUtc ≤ t.occurredUtc) (visible : Finset String) {i : Nat}
    (hi : i < ps.length) :
    (walkPhases ps rows visible)[i]? = some ((rows.filter (passed ps i)).foldl walkStep visible) := by
  induction ps generalizing rows visible i with
  | nil => cases hi
  | cons p ps ih =>
    rw [walkPhases]
    cases i with
    | zero =>
      have hpassed : passed (p :: ps) 0 = fun t => decide (t.occurredUtc < p.startUtc) := by
        funext t
        simp [passed]
      rw [List.getElem?_cons_zero, takeWhile_eq_filter h, hpassed]
    | succ i =>
      have hsplit := List.takeWhile_append_dropWhile
        (p := fun t : RunTransition => decide (t.occurredUtc < p.startUtc)) (l := rows)
      have hrest := h.sublist (List.dropWhile_sublist fun t => decide (t.occurredUtc < p.startUtc))
      rw [List.getElem?_cons_succ, ih hrest _ (Nat.lt_of_succ_lt_succ hi), ← List.foldl_append]
      congr 2
      conv_rhs => rw [← hsplit, List.filter_append]
      have hpassed (t : RunTransition) : passed (p :: ps) (i + 1) t =
          (decide (t.occurredUtc < p.startUtc) || passed ps i t) := by
        simp [passed]
      congr 1
      · refine (List.filter_eq_self.2 fun t ht => ?_).symm
        rw [hpassed, List.mem_takeWhile_imp ht, Bool.true_or]
      · refine List.filter_congr fun t ht => ?_
        have hnot := not_lt_of_mem_dropWhile h ht
        rw [hpassed, decide_eq_false hnot, Bool.false_or]

/-! ## The law of the phases -/

section
variable (env : ComparisonEnv) (toRfc3339 : DateTime → String) (phases : List CaseStudyPhase)
variable (run : AnalysedRun)

/-- The instants of a phase. -/
def phaseSpan (p : CaseStudyPhase) : Option (DateTime × DateTime) := do
  let start ← (env.rfc3339 p.startUtc).toOption
  let stop ← (env.rfc3339 p.endUtc).toOption
  return (start, stop)

/-- The `i`th phase is from `s` up to `e`. -/
def SpanAt (i : Nat) (s e : DateTime) : Prop :=
  ∃ p, phases[i]? = some p ∧ phaseSpan env p = some (s, e)

/-- The boundaries are timestamps, and no instant is in two phases. -/
structure ReviewedPhases : Prop where
  parsed : ∀ p ∈ phases, (phaseSpan env p).isSome
  disjoint : ∀ i j s e s' e', SpanAt env phases i s e → SpanAt env phases j s' e' →
    ∀ t, s ≤ t → t < e → s' ≤ t → t < e' → i = j

/-- The streams counted as active when the `i`th phase starts. -/
def countedEntering (i : Nat) : Finset String :=
  (visibleEntering phases (run.streams.map streamLabel) (run.rows toRfc3339)).getD i ∅

/-- Transitions are counted in the phase they happen in, and each phase is entered by the streams
that have an active instance. -/
structure PhaseLaw : Prop where
  assigned : ∀ t ∈ run.transitions, ∀ i, phaseIndex phases (phaseRow toRfc3339 t) = some i ↔
    ∃ s e, SpanAt env phases i s e ∧ s ≤ t.to_.timestamp ∧ t.to_.timestamp < e
  number : ∀ i s e, SpanAt env phases i s e →
    (activeStreamsEntering phases (run.streams.map streamLabel) (run.rows toRfc3339))[i]? =
      some (run.activeStreams s).length
  /-- No stream with an active instance is hidden. -/
  shown : ∀ i s e, SpanAt env phases i s e → ∀ x ∈ run.streams, run.ActiveAt s x →
    streamLabel x ∈ countedEntering toRfc3339 phases run i
  /-- No stream without one, for instance one that is announced later, is counted. -/
  absent : ∀ i s e, SpanAt env phases i s e → ∀ x ∈ run.streams, ¬ run.ActiveAt s x →
    streamLabel x ∉ countedEntering toRfc3339 phases run i

/-- The texts of the phase enclose the row's. -/
def CaseStudyPhase.encloses (p : CaseStudyPhase) (t : RunTransition) : Prop :=
  p.startUtc ≤ t.occurredUtc ∧ t.occurredUtc < p.endUtc

instance (p : CaseStudyPhase) (t : RunTransition) : Decidable (p.encloses t) :=
  inferInstanceAs (Decidable (_ ∧ _))

/-- The texts of a phase enclose that of a transition where its instants do, and elsewhere only after
an earlier phase that has it. -/
def FiledByInstant : Prop :=
  ∀ t ∈ run.transitions, ∀ (i : Nat) p s e, phases[i]? = some p → phaseSpan env p = some (s, e) →
    (s ≤ t.to_.timestamp → t.to_.timestamp < e → p.encloses (phaseRow toRfc3339 t)) ∧
    (p.encloses (phaseRow toRfc3339 t) → ¬ (s ≤ t.to_.timestamp ∧ t.to_.timestamp < e) →
      ∃ j < i, ∃ p' : CaseStudyPhase, phases[j]? = some p' ∧ p'.encloses (phaseRow toRfc3339 t) ∧
        ∃ s' e', phaseSpan env p' = some (s', e') ∧ s' ≤ t.to_.timestamp ∧ t.to_.timestamp < e')

/-- Among the rows with a text below the start of the phase or of one listed before it, the last one
of a stream that is a withdrawal or a return is a withdrawal exactly where the stream has no active
instance at the start; and the active streams have different texts. -/
def ShownByInstance : Prop :=
  ∀ i s e, SpanAt env phases i s e →
    (∀ x ∈ run.streams,
      lastMark ((sortBy (compareOn (·.occurredUtc)) (run.rows toRfc3339)).filter (passed phases i))
        (streamLabel x) = some "Withdrawal" ↔ ¬ run.ActiveAt s x) ∧
    ((run.activeStreams s).map streamLabel).Nodup

end

section
variable {env : ComparisonEnv} {toRfc3339 : DateTime → String} {phases : List CaseStudyPhase}
variable {run : AnalysedRun}

theorem SpanAt.lt {i : Nat} {s e : DateTime} (h : SpanAt env phases i s e) : i < phases.length := by
  obtain ⟨p, hp, -⟩ := h
  exact (List.getElem?_eq_some_iff.1 hp).1

/-- The first phase whose texts enclose the row's. -/
theorem phaseIndex_eq_some {t : RunTransition} {i : Nat} : phaseIndex phases t = some i ↔
    (∃ p, phases[i]? = some p ∧ p.encloses t) ∧
      ∀ j < i, ∀ p', phases[j]? = some p' → ¬ p'.encloses t := by
  rw [phaseIndex, List.findIdx?_eq_some_iff_getElem]
  constructor
  · rintro ⟨hi, hp, hbefore⟩
    refine ⟨⟨phases.get ⟨i, hi⟩, List.getElem?_eq_getElem hi, of_decide_eq_true hp⟩, ?_⟩
    intro j hj p' hp' hencl
    obtain ⟨hlt, rfl⟩ := List.getElem?_eq_some_iff.1 hp'
    exact hbefore j hj (decide_eq_true hencl)
  · rintro ⟨⟨p, hp, hencl⟩, hbefore⟩
    obtain ⟨hi, rfl⟩ := List.getElem?_eq_some_iff.1 hp
    refine ⟨hi, decide_eq_true hencl, fun j hj hj' => ?_⟩
    exact hbefore j hj _ (List.getElem?_eq_getElem (hj.trans hi)) (of_decide_eq_true hj')

/-- Transitions are assigned by their instants exactly where the texts enclose alike. -/
theorem assigned_iff (hp : ReviewedPhases env phases) :
    (∀ t ∈ run.transitions, ∀ i, phaseIndex phases (phaseRow toRfc3339 t) = some i ↔
      ∃ s e, SpanAt env phases i s e ∧ s ≤ t.to_.timestamp ∧ t.to_.timestamp < e) ↔
    FiledByInstant env toRfc3339 phases run := by
  constructor
  · intro h t ht i p s e hi hspan
    constructor
    · intro hs he
      obtain ⟨⟨p', hp', hencl⟩, -⟩ :=
        phaseIndex_eq_some.1 ((h t ht i).2 ⟨s, e, ⟨p, hi, hspan⟩, hs, he⟩)
      obtain rfl := Option.some.inj (hi.symm.trans hp')
      exact hencl
    · intro hencl hout
      -- some phase is the first that encloses, and it is not this one
      by_contra hno
      have hfirst : phaseIndex phases (phaseRow toRfc3339 t) = some i := by
        refine phaseIndex_eq_some.2 ⟨⟨p, hi, hencl⟩, fun j hj p' hp' hencl' => ?_⟩
        obtain ⟨k, hk⟩ : ∃ k, phaseIndex phases (phaseRow toRfc3339 t) = some k := by
          refine Option.isSome_iff_exists.1 ?_
          rw [phaseIndex, List.findIdx?_isSome, List.any_eq_true]
          exact ⟨p', List.mem_of_getElem? hp', decide_eq_true hencl'⟩
        obtain ⟨⟨q, hq, henclq⟩, hbefore⟩ := phaseIndex_eq_some.1 hk
        have hkj : k ≤ j := by
          by_contra hlt
          exact hbefore j (by omega) p' hp' hencl'
        obtain ⟨s', e', ⟨q', hq', hspan'⟩, hs', he'⟩ := (h t ht k).1 hk
        obtain rfl := Option.some.inj (hq.symm.trans hq')
        exact hno ⟨k, by omega, q, hq, henclq, s', e', hspan', hs', he'⟩
      obtain ⟨s', e', ⟨p', hp', hspan'⟩, hs', he'⟩ := (h t ht i).1 hfirst
      obtain rfl := Option.some.inj (hi.symm.trans hp')
      obtain ⟨rfl, rfl⟩ := Prod.mk.inj (Option.some.inj (hspan.symm.trans hspan'))
      exact hout ⟨hs', he'⟩
  · intro h t ht i
    constructor
    · intro hi
      obtain ⟨⟨p, hp', hencl⟩, hbefore⟩ := phaseIndex_eq_some.1 hi
      obtain ⟨⟨s, e⟩, hspan⟩ := Option.isSome_iff_exists.1 (hp.parsed p (List.mem_of_getElem? hp'))
      refine ⟨s, e, ⟨p, hp', hspan⟩, ?_⟩
      by_contra hout
      obtain ⟨j, hj, p', hpj, hencl', -⟩ := (h t ht i p s e hp' hspan).2 hencl hout
      exact hbefore j hj p' hpj hencl'
    · rintro ⟨s, e, ⟨p, hpi, hspan⟩, hs, he⟩
      have hencl := (h t ht i p s e hpi hspan).1 hs he
      refine phaseIndex_eq_some.2 ⟨⟨p, hpi, hencl⟩, fun j hj p' hpj hencl' => ?_⟩
      obtain ⟨⟨s', e'⟩, hspan'⟩ :=
        Option.isSome_iff_exists.1 (hp.parsed p' (List.mem_of_getElem? hpj))
      have hout : ¬ (s' ≤ t.to_.timestamp ∧ t.to_.timestamp < e') := fun hin =>
        hj.ne (hp.disjoint j i s' e' s e ⟨p', hpj, hspan'⟩ ⟨p, hpi, hspan⟩ _ hin.1 hin.2 hs he)
      -- an earlier phase has it by its instants as well
      obtain ⟨k, hk, q, hq, -, s₂, e₂, hspan₂, hs₂, he₂⟩ :=
        (h t ht j p' s' e' hpj hspan').2 hencl' hout
      have heq := hp.disjoint k i s₂ e₂ s e ⟨q, hq, hspan₂⟩ ⟨p, hpi, hspan⟩ _ hs₂ he₂ hs he
      omega

theorem sorted_rows : (sortBy (compareOn (·.occurredUtc)) (run.rows toRfc3339)).Pairwise
    fun s t => s.occurredUtc ≤ t.occurredUtc := by
  have h : (sortBy (compareOn (·.occurredUtc)) (run.rows toRfc3339)).Pairwise
      (CmpLE (compareOn (·.occurredUtc))) := sortBy_pairwise _
  refine h.imp fun {s t} hle => ?_
  by_contra hgt
  rw [CmpLE, compareOn, compare_gt_iff_gt.2 (lt_of_not_ge hgt)] at hle
  cases hle

/-- The streams that are counted are streams of the run. -/
theorem mem_countedEntering {i : Nat} (hi : i < phases.length) {x : String} :
    x ∈ countedEntering toRfc3339 phases run i ↔ x ∈ run.streams.map streamLabel ∧
      lastMark ((sortBy (compareOn (·.occurredUtc)) (run.rows toRfc3339)).filter (passed phases i)) x ≠
        some "Withdrawal" := by
  have hall : ∀ y : String,
      y ∈ (run.streams.map streamLabel ++ (run.rows toRfc3339).map (·.stream)).toFinset ↔
        y ∈ run.streams.map streamLabel := by
    intro y
    rw [List.mem_toFinset, List.mem_append, or_iff_left_of_imp]
    rintro hy
    obtain ⟨row, hrow, rfl⟩ := List.mem_map.1 hy
    obtain ⟨t, ht, rfl⟩ := List.mem_map.1 hrow
    exact List.mem_map_of_mem (mem_lifecycleStreams.2 (Or.inr ⟨t, ht, rfl⟩))
  rw [countedEntering, List.getD_eq_getElem?_getD, visibleEntering,
    walkPhases_getElem? sorted_rows _ hi, Option.getD_some, mem_foldl_walkStep, hall]
  cases hlast : lastMark ((sortBy (compareOn (·.occurredUtc)) (run.rows toRfc3339)).filter
      (passed phases i)) x with
  | none => simp
  | some kind =>
    rw [Option.elim_some, ne_eq, ne_eq, Option.some.injEq]
    refine (and_iff_right ?_).symm
    -- a stream with a mark has a row
    obtain ⟨t, ht, -⟩ := Option.map_eq_some_iff.1 hlast
    obtain ⟨hmem, hmarks⟩ := List.mem_filter.1 (List.mem_of_getLast? ht)
    rw [← (of_decide_eq_true hmarks).1]
    refine (hall _).1 (List.mem_toFinset.2 (List.mem_append_right _ (List.mem_map_of_mem ?_)))
    exact mem_sortBy.1 (List.mem_of_mem_filter hmem)

theorem activeStreamsEntering_getElem? {i : Nat} (hi : i < phases.length) :
    (activeStreamsEntering phases (run.streams.map streamLabel) (run.rows toRfc3339))[i]? =
      some (countedEntering toRfc3339 phases run i).card := by
  rw [activeStreamsEntering, List.getElem?_map, countedEntering, List.getD_eq_getElem?_getD,
    visibleEntering, walkPhases_getElem? sorted_rows _ hi]
  rfl

theorem nodup_streams (run : AnalysedRun) : run.streams.Nodup :=
  nodup_lifecycleStreams _ _ (nodup_observerPrefixes _ _ _)

theorem mem_activeStreams {t : DateTime} {x : ObserverPrefixKey} :
    x ∈ run.activeStreams t ↔ x ∈ run.streams ∧ run.ActiveAt t x := by
  rw [AnalysedRun.activeStreams, List.mem_filter, decide_eq_true_iff]

/-- Where the right streams are counted, the number is right where no two of them are one text. -/
theorem card_countedEntering {i : Nat} {s e : DateTime} (hspan : SpanAt env phases i s e)
    (h : ∀ x ∈ run.streams, streamLabel x ∈ countedEntering toRfc3339 phases run i ↔
      run.ActiveAt s x) :
    (countedEntering toRfc3339 phases run i).card = (run.activeStreams s).length ↔
      ((run.activeStreams s).map streamLabel).Nodup := by
  have heq : countedEntering toRfc3339 phases run i =
      ((run.activeStreams s).map streamLabel).toFinset := by
    ext x
    rw [List.mem_toFinset, List.mem_map]
    constructor
    · intro hx
      obtain ⟨stream, hstream, rfl⟩ := List.mem_map.1 ((mem_countedEntering hspan.lt).1 hx).1
      exact ⟨stream, mem_activeStreams.2 ⟨hstream, (h stream hstream).1 hx⟩, rfl⟩
    · rintro ⟨stream, hstream, rfl⟩
      obtain ⟨hmem, hactive⟩ := mem_activeStreams.1 hstream
      exact (h stream hmem).2 hactive
  rw [heq, ← List.length_map (f := streamLabel), List.card_toFinset]
  constructor
  · intro hlen
    have hdedup := (List.dedup_sublist ((run.activeStreams s).map streamLabel)).eq_of_length hlen
    exact List.dedup_eq_self.1 hdedup
  · intro hnodup
    rw [hnodup.dedup]

/-- **When phases are counted right**: exactly where the texts enclose as the instants do, and the last
row of each stream tells whether it has an active instance. -/
theorem phaseLaw_iff (hp : ReviewedPhases env phases) : PhaseLaw env toRfc3339 phases run ↔
    FiledByInstant env toRfc3339 phases run ∧ ShownByInstance env toRfc3339 phases run := by
  have hshown {i : Nat} {s e : DateTime} (hspan : SpanAt env phases i s e) {x : ObserverPrefixKey}
      (hx : x ∈ run.streams) : streamLabel x ∈ countedEntering toRfc3339 phases run i ↔
        lastMark ((sortBy (compareOn (·.occurredUtc)) (run.rows toRfc3339)).filter
          (passed phases i)) (streamLabel x) ≠ some "Withdrawal" := by
    rw [mem_countedEntering hspan.lt]
    exact and_iff_right (List.mem_map_of_mem hx)
  constructor
  · intro h
    refine ⟨(assigned_iff hp).1 h.assigned, fun i s e hspan => ?_⟩
    have hiff : ∀ x ∈ run.streams,
        streamLabel x ∈ countedEntering toRfc3339 phases run i ↔ run.ActiveAt s x := fun x hx =>
      ⟨fun hcounted => by_contra fun hnot => h.absent i s e hspan x hx hnot hcounted,
        h.shown i s e hspan x hx⟩
    refine ⟨fun x hx => ?_, ?_⟩
    · rw [← hiff x hx, hshown hspan hx, not_ne_iff]
    · refine (card_countedEntering hspan hiff).1 (Option.some.inj ?_)
      rw [← activeStreamsEntering_getElem? hspan.lt]
      exact h.number i s e hspan
  · rintro ⟨hfiled, hmarks⟩
    have hiff {i : Nat} {s e : DateTime} (hspan : SpanAt env phases i s e) : ∀ x ∈ run.streams,
        streamLabel x ∈ countedEntering toRfc3339 phases run i ↔ run.ActiveAt s x := by
      intro x hx
      rw [hshown hspan hx, ne_eq, (hmarks i s e hspan).1 x hx, not_not]
    refine ⟨(assigned_iff hp).2 hfiled, fun i s e hspan => ?_, ?_, ?_⟩
    · rw [activeStreamsEntering_getElem? hspan.lt,
        (card_countedEntering hspan (hiff hspan)).2 (hmarks i s e hspan).2]
    · exact fun i s e hspan x hx hactive => (hiff hspan x hx).2 hactive
    · exact fun i s e hspan x hx hnot hcounted => hnot ((hiff hspan x hx).1 hcounted)

end

/-! ## Two path ids, and a boundary -/

namespace PilotRun

/-- A time of the day of the run, in nanoseconds. -/
def hour (h : Int) : DateTime := (1566345600 + h * 3600) * 1000000000

/-- `to_rfc3339` at the times of the example. -/
def written (t : DateTime) : String :=
  if t = hour 5 then "2019-08-21T05:00:00+00:00" else "2019-08-21T10:00:00+00:00"

/-- One of the two instances of `rrc00` is withdrawn in the first phase; the stream of `rrc01` is first
announced where the second begins. -/
def addPathRun : AnalysedRun where
  eventStart := hour 4
  eventEnd := hour 14
  cooldownEnd := hour 14
  targets := [2]
  pred := .containsAny [1]
  observations := [.plain "rrc00" 0 .ribEntry (hour 2) (some 1) [1, 2],
    .plain "rrc00" 1 .ribEntry (hour 2) (some 2) [1, 2],
    .plain "rrc00" 2 .withdrawal (hour 5) (some 1),
    .plain "rrc01" 3 .announcement (hour 10) none [1, 2]]

theorem spans_phases : phases.map (phaseSpan env) =
    [some (hour 4, hour 10), some (hour 10, hour 14)] := by decide +kernel

theorem reviewedPhases : ReviewedPhases env phases := by
  have hspan {i : Nat} {s e : DateTime} (h : SpanAt env phases i s e) :
      i = 0 ∧ s = hour 4 ∧ e = hour 10 ∨ i = 1 ∧ s = hour 10 ∧ e = hour 14 := by
    obtain ⟨p, hp, hpe⟩ := h
    have hmap : (phases.map (phaseSpan env))[i]? = some (some (s, e)) := by
      rw [List.getElem?_map, hp, Option.map_some, hpe]
    rw [spans_phases] at hmap
    match i with
    | 0 => exact Or.inl ⟨rfl, by simpa [eq_comm] using hmap⟩
    | 1 => exact Or.inr ⟨rfl, by simpa [eq_comm] using hmap⟩
    | i + 2 => cases hmap
  refine ⟨fun p hp => ?_, fun i j s e s' e' hi hj t hs he hs' he' => ?_⟩
  · have hmem : phaseSpan env p ∈ phases.map (phaseSpan env) := List.mem_map_of_mem hp
    rw [spans_phases] at hmem
    rcases List.mem_cons.1 hmem with h | h
    · rw [h]
      rfl
    · rw [List.mem_singleton.1 h]
      rfl
  · rcases hspan hi with ⟨rfl, rfl, rfl⟩ | ⟨rfl, rfl, rfl⟩ <;>
      rcases hspan hj with ⟨rfl, rfl, rfl⟩ | ⟨rfl, rfl, rfl⟩
    · rfl
    · exact absurd he (Int.not_lt.2 hs')
    · exact absurd he' (Int.not_lt.2 hs)
    · rfl

theorem phaseLaw_addPathRun : PhaseLaw env written phases addPathRun ↔
    FiledByInstant env written phases addPathRun ∧ ShownByInstance env written phases addPathRun :=
  phaseLaw_iff reviewedPhases

/-- **Bug**: the second phase is entered by `rrc00` only, which is hidden, and not by `rrc01`, which is
counted in both; the announcement where the second phase starts counts in the first. -/
theorem addPath_stream_hidden :
    ReviewedPhases env phases ∧
      activeStreamsEntering phases (addPathRun.streams.map streamLabel) (addPathRun.rows written) =
        [2, 1] ∧
      (addPathRun.activeStreams (hour 4)).length = 1 ∧
      addPathRun.transitions.map (fun t => phaseIndex phases (phaseRow written t)) =
        [some 0, some 0] ∧
      ¬ PhaseLaw env written phases addPathRun := by
  have hentering : activeStreamsEntering phases (addPathRun.streams.map streamLabel)
      (addPathRun.rows written) = [2, 1] := by decide +kernel
  have hactive : (addPathRun.activeStreams (hour 4)).length = 1 := by decide +kernel
  refine ⟨reviewedPhases, hentering, hactive, by decide +kernel, fun h => ?_⟩
  have hspan : SpanAt env phases 0 (hour 4) (hour 10) :=
    ⟨⟨"2019-08-21T04:00:00Z", "2019-08-21T10:00:00Z"⟩, rfl, by decide +kernel⟩
  have hnumber := h.number 0 (hour 4) (hour 10) hspan
  rw [hentering, hactive] at hnumber
  cases hnumber

end PilotRun

end Inim
