import Inim.Catalog.RunWindows

/-!
# Relations and instants (`case_study_compare.rs:226-426`, `phase_summary.rs:140-235`)

The relation of a claim is meant to say where the transitions of the covering runs lie in time. It is
found by comparing texts, and from the earliest transition of each phase only. `relationLaw_iff` gives
the condition under which this is the relation of the instants. It fails where

* a phase only touches the end of the claim's window and has a transition (`p.start_utc <= *we`);
* a transition is outside every phase, or at a boundary that is spelled otherwise (`+00:00` and `Z`);
* a run has transitions before the window, but none in its first phase that has any.

| here | there |
| --- | --- |
| `instantRelation` | the relation as the instants have it |
| `TextsOverlap`, `TextsBefore`, `TextsAny` | what the comparison of texts finds |
-/

namespace Inim

open Std Inim.Lib

/-! ## The relation of the instants -/

/-- The runs whose plan has a window that meets `w`, or none. -/
def coveringInstants (env : ComparisonEnv) (runs : List ComparedRun) (w : InstantWindow) :
    List ComparedRun :=
  runs.filter fun r =>
    match runWindow env r with
    | none => true
    | some (s, e) =>
      match env.rfc3339 s, env.rfc3339 e with
      | .ok start, .ok stop => w.Meets start stop
      | _, _ => true

def transitionInstants (env : ComparisonEnv) (runs : List ComparedRun) : List DateTime :=
  (runs.flatMap (·.transitions)).filterMap fun t => (env.rfc3339 t.occurredUtc).toOption

def InstantWindow.start : InstantWindow → DateTime
  | .point t => t
  | .span start _ => start

/-- A point is overlapped by the earliest instant, a span by any. -/
def InstantWindow.Overlaps (times : List DateTime) : InstantWindow → Prop
  | .point p => p ∈ times ∧ ∀ i ∈ times, p ≤ i
  | .span start stop => ∃ i ∈ times, start ≤ i ∧ i < stop

instance (times : List DateTime) : (w : InstantWindow) → Decidable (w.Overlaps times)
  | .point _ => inferInstanceAs (Decidable (_ ∧ _))
  | .span _ _ => inferInstanceAs (Decidable (∃ i ∈ times, _))

/-- The first test that holds decides. -/
def verdict (overlap before any : Prop) [Decidable overlap] [Decidable before] [Decidable any] :
    ComparisonRelation :=
  if overlap then .overlapping
  else if before then .before
  else if any then .after
  else .noObservedCounterpart

def instantRelation (env : ComparisonEnv) (runs : List ComparedRun) (w : InstantWindow) :
    ComparisonRelation :=
  let covering := coveringInstants env runs w
  let times := transitionInstants env covering
  if covering = [] then .indeterminate
  else verdict (w.Overlaps times) (∃ i ∈ times, i < w.start) (times ≠ [])

/-- The claim gets the relation of the instants. -/
def RelationLaw (env : ComparisonEnv) (cs : CaseStudy) (c : CaseStudyClaim) : Prop :=
  ∀ w, claimInstants env cs.phases c = some w →
    (comparisonRow env cs c).interpretation = instantRelation env cs.runs w

/-! ## What the texts say -/

/-- The phase a transition is counted in. -/
def filedUnder (phases : List CaseStudyPhase) (t : RunTransition) : Option CaseStudyPhase :=
  (phaseIndex phases t).bind fun i => phases[i]?

/-- The transitions of `r` in the first phase, as listed, that has any. -/
def leadingTransitions (phases : List CaseStudyPhase) (r : ComparedRun) : List RunTransition :=
  (((List.range phases.length).map (phaseTransitions phases r)).find? (· ≠ [])).getD []

section
variable (phases : List CaseStudyPhase) (covering : List ComparedRun) (ws we : String)

/-- Some transition is counted in a phase. -/
def TextsAny : Prop := ∃ r ∈ covering, ∃ t ∈ r.transitions, (filedUnder phases t).isSome

/-- At a point: the earliest text is that of the anchor. In a window: a transition is counted in a
phase that ends after the start and starts no later than the end. -/
def TextsOverlap : Prop :=
  if ws = we then
    (∃ r ∈ covering, ∃ t ∈ r.transitions, (filedUnder phases t).isSome ∧ t.occurredUtc = ws) ∧
      ∀ r ∈ covering, ∀ t ∈ r.transitions, (filedUnder phases t).isSome → ws ≤ t.occurredUtc
  else
    ∃ r ∈ covering, ∃ t ∈ r.transitions, ∃ p,
      filedUnder phases t = some p ∧ ws < p.endUtc ∧ p.startUtc ≤ we

/-- At a point: a transition that is counted has a smaller text. In a window: one does that some run
has in its first phase with any. -/
def TextsBefore : Prop :=
  if ws = we then
    ∃ r ∈ covering, ∃ t ∈ r.transitions, (filedUnder phases t).isSome ∧ t.occurredUtc < ws
  else ∃ r ∈ covering, ∃ t ∈ leadingTransitions phases r, t.occurredUtc < ws

end

/-- The tests on the texts come out as the ones on the instants: which runs cover, whether there is a
transition in the window, else one before it, else any. -/
def TextsAgree (env : ComparisonEnv) (cs : CaseStudy) (ws we : String) (w : InstantWindow) : Prop :=
  let covering := coveringRuns env cs.runs ws we
  let times := transitionInstants env (coveringInstants env cs.runs w)
  (covering = [] ↔ coveringInstants env cs.runs w = []) ∧
  (covering ≠ [] →
    (TextsOverlap cs.phases covering ws we ↔ w.Overlaps times) ∧
    (¬ w.Overlaps times →
      (TextsBefore cs.phases covering ws we ↔ ∃ i ∈ times, i < w.start) ∧
      (¬ (∃ i ∈ times, i < w.start) → (TextsAny cs.phases covering ↔ times ≠ []))))

/-! ## The earliest text -/

/-- What `summarizePhase` keeps of the times. -/
def firstEvidence (ts : List RunTransition) : Option String := ts.foldl earlierText none

theorem foldl_earlierText (ts : List RunTransition) (first : String) :
    ∃ f, ts.foldl earlierText (some first) = some f ∧ (f = first ∨ ∃ t ∈ ts, t.occurredUtc = f) ∧
      f ≤ first ∧ ∀ t ∈ ts, f ≤ t.occurredUtc := by
  induction ts generalizing first with
  | nil => exact ⟨first, rfl, Or.inl rfl, le_rfl, by simp⟩
  | cons t ts ih =>
    rw [List.foldl_cons, earlierText]
    by_cases h : t.occurredUtc < first
    · rw [if_pos h]
      obtain ⟨f, hf, hmem, hle, hall⟩ := ih t.occurredUtc
      refine ⟨f, hf, Or.inr ?_, hle.trans h.le, List.forall_mem_cons.2 ⟨hle, hall⟩⟩
      rcases hmem with rfl | ⟨u, hu, rfl⟩
      · exact ⟨t, List.mem_cons_self, rfl⟩
      · exact ⟨u, List.mem_cons_of_mem _ hu, rfl⟩
    · rw [if_neg h]
      obtain ⟨f, hf, hmem, hle, hall⟩ := ih first
      refine ⟨f, hf, ?_, hle, List.forall_mem_cons.2 ⟨hle.trans (le_of_not_gt h), hall⟩⟩
      rcases hmem with rfl | ⟨u, hu, rfl⟩
      · exact Or.inl rfl
      · exact Or.inr ⟨u, List.mem_cons_of_mem _ hu, rfl⟩

theorem firstEvidence_eq_none {ts : List RunTransition} : firstEvidence ts = none ↔ ts = [] := by
  cases ts with
  | nil => exact iff_of_true rfl rfl
  | cons t ts =>
    obtain ⟨f, hf, -⟩ := foldl_earlierText ts t.occurredUtc
    refine iff_of_false ?_ (List.cons_ne_nil _ _)
    rw [firstEvidence, List.foldl_cons, earlierText, hf]
    exact Option.some_ne_none _

theorem firstEvidence_eq_some {ts : List RunTransition} {f : String}
    (h : firstEvidence ts = some f) : (∃ t ∈ ts, t.occurredUtc = f) ∧ ∀ t ∈ ts, f ≤ t.occurredUtc := by
  cases ts with
  | nil => cases h
  | cons t ts =>
    obtain ⟨f', hf, hmem, hle, hall⟩ := foldl_earlierText ts t.occurredUtc
    rw [firstEvidence, List.foldl_cons, earlierText, hf] at h
    obtain rfl := Option.some.inj h
    refine ⟨?_, List.forall_mem_cons.2 ⟨hle, hall⟩⟩
    rcases hmem with rfl | ⟨u, hu, rfl⟩
    · exact ⟨t, List.mem_cons_self, rfl⟩
    · exact ⟨u, List.mem_cons_of_mem _ hu, rfl⟩

/-- The head of a sorted list of texts is its least element. -/
theorem sorted_head_le {l rest : List String} {a : String} (h : sortBy compare l = a :: rest) :
    a ∈ l ∧ ∀ b ∈ l, a ≤ b := by
  obtain ⟨ha, hle⟩ := sortBy_head h
  refine ⟨ha, fun b hb => ?_⟩
  by_contra hlt
  have hab := hle b hb
  rw [CmpLE, compare_gt_iff_gt.2 (lt_of_not_ge hlt)] at hab
  cases hab

/-! ## From summaries to transitions -/

theorem mem_phaseTransitions {phases : List CaseStudyPhase} {r : ComparedRun} {i : Nat}
    {t : RunTransition} :
    t ∈ phaseTransitions phases r i ↔ t ∈ r.transitions ∧ phaseIndex phases t = some i := by
  rw [phaseTransitions, List.mem_filter, decide_eq_true_iff]

theorem phaseIndex_lt {phases : List CaseStudyPhase} {t : RunTransition} {i : Nat}
    (h : phaseIndex phases t = some i) : i < phases.length :=
  (List.findIdx?_eq_some_iff_getElem.1 h).1

theorem filedUnder_isSome {phases : List CaseStudyPhase} {t : RunTransition} :
    (filedUnder phases t).isSome ↔ ∃ i, phaseIndex phases t = some i := by
  rw [filedUnder]
  cases h : phaseIndex phases t with
  | none => exact iff_of_false (by simp) (by simp)
  | some i =>
    have hlt := phaseIndex_lt h
    refine iff_of_true ?_ ⟨i, rfl⟩
    rw [Option.bind_some, List.getElem?_eq_getElem hlt]
    rfl

/-- A transition lies in the phase it is counted in. -/
theorem filedUnder_spec {phases : List CaseStudyPhase} {t : RunTransition} {p : CaseStudyPhase}
    (h : filedUnder phases t = some p) : p.startUtc ≤ t.occurredUtc ∧ t.occurredUtc < p.endUtc := by
  obtain ⟨i, hi, hp⟩ := Option.bind_eq_some_iff.1 h
  obtain ⟨hlt, hin, -⟩ := List.findIdx?_eq_some_iff_getElem.1 hi
  rw [List.getElem?_eq_getElem hlt] at hp
  obtain rfl := Option.some.inj hp
  exact of_decide_eq_true hin

section
variable {phases : List CaseStudyPhase} {covering : List ComparedRun} {ws we : String}

/-- The summaries of a run, by the places of its phases. -/
theorem mem_summaries {r : ComparedRun} {s : PhaseSummary} :
    s ∈ (summarizeRun phases r).phases ↔
      ∃ i p, phases[i]? = some p ∧ summarizePhase p (phaseTransitions phases r i) = s := by
  rw [summarizeRun, List.mem_mapIdx]
  constructor
  · rintro ⟨i, hi, rfl⟩
    exact ⟨i, phases[i], List.getElem?_eq_getElem hi, rfl⟩
  · rintro ⟨i, p, hp, rfl⟩
    obtain ⟨hi, rfl⟩ := List.getElem?_eq_some_iff.1 hp
    exact ⟨i, hi, rfl⟩

theorem mem_evidence {r : ComparedRun} {f : String} :
    f ∈ (summarizeRun phases r).phases.filterMap (·.firstEvidenceUtc) ↔
      ∃ i, firstEvidence (phaseTransitions phases r i) = some f := by
  rw [List.mem_filterMap]
  constructor
  · rintro ⟨s, hs, hf⟩
    obtain ⟨i, p, -, rfl⟩ := mem_summaries.1 hs
    exact ⟨i, hf⟩
  · rintro ⟨i, hf⟩
    obtain ⟨⟨t, ht, -⟩, -⟩ := firstEvidence_eq_some hf
    have hlt := phaseIndex_lt (mem_phaseTransitions.1 ht).2
    exact ⟨_, mem_summaries.2 ⟨i, _, List.getElem?_eq_getElem hlt, rfl⟩, hf⟩

theorem mem_evidence_inWindow {r : ComparedRun} {f : String} :
    f ∈ ((summarizeRun phases r).phases.filter (·.inWindow ws we)).filterMap
        (·.firstEvidenceUtc) ↔
      ∃ i p, phases[i]? = some p ∧ ws < p.endUtc ∧ p.startUtc ≤ we ∧
        firstEvidence (phaseTransitions phases r i) = some f := by
  rw [List.mem_filterMap]
  constructor
  · rintro ⟨s, hs, hf⟩
    obtain ⟨hs, hin⟩ := List.mem_filter.1 hs
    obtain ⟨i, p, hp, rfl⟩ := mem_summaries.1 hs
    obtain ⟨hws, hwe⟩ := Bool.and_eq_true_iff.1 hin
    exact ⟨i, p, hp, of_decide_eq_true hws, of_decide_eq_true hwe, hf⟩
  · rintro ⟨i, p, hp, hws, hwe, hf⟩
    refine ⟨_, List.mem_filter.2 ⟨mem_summaries.2 ⟨i, p, hp, rfl⟩, ?_⟩, hf⟩
    exact Bool.and_eq_true_iff.2 ⟨decide_eq_true hws, decide_eq_true hwe⟩

/-- The first evidence there is, is that of the first phase that has a transition. -/
theorem findSome?_firstEvidence (ls : List (List RunTransition)) :
    ls.findSome? firstEvidence = firstEvidence ((ls.find? (· ≠ [])).getD []) := by
  induction ls with
  | nil => rfl
  | cons ts ls ih =>
    by_cases hts : ts = []
    · rw [List.findSome?_cons, hts, ih]
      rfl
    · have hfind : (ts :: ls).find? (fun l => decide (l ≠ [])) = some ts :=
        List.find?_cons_of_pos (decide_eq_true hts)
      rw [hfind, List.findSome?_cons]
      cases hf : firstEvidence ts with
      | none => exact absurd (firstEvidence_eq_none.1 hf) hts
      | some f => exact hf.symm

theorem findSome?_summaries (r : ComparedRun) :
    (summarizeRun phases r).phases.findSome? (·.firstEvidenceUtc) =
      firstEvidence (leadingTransitions phases r) := by
  have hlist : (summarizeRun phases r).phases.map (·.firstEvidenceUtc) =
      ((List.range phases.length).map (phaseTransitions phases r)).map firstEvidence := by
    refine List.ext_getElem (by simp [summarizeRun]) fun i h₁ h₂ => ?_
    simp only [summarizeRun, List.getElem_map, List.getElem_mapIdx, List.getElem_range]
    rfl
  rw [leadingTransitions, ← findSome?_firstEvidence, ← Function.id_comp firstEvidence,
    ← List.findSome?_map, ← hlist, List.findSome?_map]
  rfl

theorem mem_leadingTransitions {r : ComparedRun} {t : RunTransition}
    (h : t ∈ leadingTransitions phases r) :
    t ∈ r.transitions ∧ (filedUnder phases t).isSome := by
  rw [leadingTransitions] at h
  cases hfind : ((List.range phases.length).map (phaseTransitions phases r)).find? (· ≠ []) with
  | none =>
    rw [hfind] at h
    cases h
  | some ts =>
    rw [hfind] at h
    obtain ⟨i, -, rfl⟩ := List.mem_map.1 (List.mem_of_find?_eq_some hfind)
    obtain ⟨ht, hi⟩ := mem_phaseTransitions.1 h
    exact ⟨ht, filedUnder_isSome.2 ⟨i, hi⟩⟩

theorem leadingTransitions_ne_nil {r : ComparedRun} {t : RunTransition} (ht : t ∈ r.transitions)
    (hfiled : (filedUnder phases t).isSome) : leadingTransitions phases r ≠ [] := by
  obtain ⟨i, hi⟩ := filedUnder_isSome.1 hfiled
  have hmem : phaseTransitions phases r i ∈
      (List.range phases.length).map (phaseTransitions phases r) :=
    List.mem_map.2 ⟨i, List.mem_range.2 (phaseIndex_lt hi), rfl⟩
  have hne : phaseTransitions phases r i ≠ [] :=
    List.ne_nil_of_mem (mem_phaseTransitions.2 ⟨ht, hi⟩)
  rw [leadingTransitions]
  cases hfind : ((List.range phases.length).map (phaseTransitions phases r)).find? (· ≠ []) with
  | none => exact absurd (decide_eq_true hne) (List.find?_eq_none.1 hfind _ hmem)
  | some ts =>
    have hts := List.find?_some hfind
    exact of_decide_eq_true hts

/-! ## What the findings decide -/

/-- The relation is the one of the first test that holds. -/
def Decides (overlap before any : Prop) : ComparisonRelation → Prop
  | .overlapping => overlap
  | .before => ¬ overlap ∧ before
  | .after => ¬ overlap ∧ ¬ before ∧ any
  | .noObservedCounterpart => ¬ overlap ∧ ¬ before ∧ ¬ any
  | _ => False

theorem decides_verdict (overlap before any : Prop) [Decidable overlap] [Decidable before]
    [Decidable any] : Decides overlap before any (verdict overlap before any) := by
  unfold verdict
  split
  · assumption
  · split
    · constructor <;> assumption
    · split
      · exact ⟨‹_›, ‹_›, ‹_›⟩
      · exact ⟨‹_›, ‹_›, ‹_›⟩

/-- Two series of tests have one outcome where they agree up to the first that holds. -/
theorem decides_eq_iff {o b a o' b' a' : Prop} {rel rel' : ComparisonRelation}
    (h : Decides o b a rel) (h' : Decides o' b' a' rel') :
    rel = rel' ↔ (o ↔ o') ∧ (¬ o' → (b ↔ b') ∧ (¬ b' → (a ↔ a'))) := by
  cases rel <;> cases rel' <;> simp only [Decides] at h h' <;> simp <;> tauto

theorem textsAny_iff : TextsAny phases covering ↔ ∃ r ∈ covering, leadingTransitions phases r ≠ [] := by
  constructor
  · rintro ⟨r, hr, t, ht, hfiled⟩
    exact ⟨r, hr, leadingTransitions_ne_nil ht hfiled⟩
  · rintro ⟨r, hr, hne⟩
    obtain ⟨t, ht⟩ := List.exists_mem_of_ne_nil _ hne
    exact ⟨r, hr, t, mem_leadingTransitions ht⟩

/-- The first evidence of the runs in their leading phases. -/
theorem mem_firsts {f : String} :
    f ∈ wholeRunFirsts (covering.map (summarizeRun phases)) ↔
      ∃ r ∈ covering, firstEvidence (leadingTransitions phases r) = some f := by
  rw [wholeRunFirsts, List.filterMap_map, List.mem_filterMap]
  refine exists_congr fun r => and_congr_right fun _ => ?_
  rw [Function.comp_apply, findSome?_summaries]

theorem inWindow_ne_nil (hne : ws ≠ we) :
    evidenceInWindow ws we (covering.map (summarizeRun phases)) ≠ [] ↔
      TextsOverlap phases covering ws we := by
  rw [TextsOverlap, if_neg hne, evidenceInWindow, List.flatMap_map]
  constructor
  · intro h
    obtain ⟨f, hf⟩ := List.exists_mem_of_ne_nil _ h
    obtain ⟨r, hr, hf⟩ := List.mem_flatMap.1 hf
    obtain ⟨i, p, hp, hws, hwe, hf⟩ := mem_evidence_inWindow.1 hf
    obtain ⟨⟨t, ht, -⟩, -⟩ := firstEvidence_eq_some hf
    obtain ⟨ht, hi⟩ := mem_phaseTransitions.1 ht
    exact ⟨r, hr, t, ht, p, by rw [filedUnder, hi]; exact hp, hws, hwe⟩
  · rintro ⟨r, hr, t, ht, p, hfiled, hws, hwe⟩
    obtain ⟨i, hi, hp⟩ := Option.bind_eq_some_iff.1 hfiled
    have hne : phaseTransitions phases r i ≠ [] :=
      List.ne_nil_of_mem (mem_phaseTransitions.2 ⟨ht, hi⟩)
    obtain ⟨f, hf⟩ := Option.ne_none_iff_exists'.1 fun hnone => hne (firstEvidence_eq_none.1 hnone)
    exact List.ne_nil_of_mem (List.mem_flatMap.2
      ⟨r, hr, mem_evidence_inWindow.2 ⟨i, p, hp, hws, hwe, hf⟩⟩)

theorem beforeWindow_ne_nil (hne : ws ≠ we) :
    (wholeRunFirsts (covering.map (summarizeRun phases))).filter (fun first => first < ws) ≠ [] ↔
      TextsBefore phases covering ws we := by
  rw [TextsBefore, if_neg hne]
  constructor
  · intro h
    obtain ⟨f, hf⟩ := List.exists_mem_of_ne_nil _ h
    obtain ⟨hf, hlt⟩ := List.mem_filter.1 hf
    obtain ⟨r, hr, hf⟩ := mem_firsts.1 hf
    obtain ⟨⟨t, ht, rfl⟩, -⟩ := firstEvidence_eq_some hf
    exact ⟨r, hr, t, ht, of_decide_eq_true hlt⟩
  · rintro ⟨r, hr, t, ht, hlt⟩
    obtain ⟨f, hf⟩ := Option.ne_none_iff_exists'.1 fun hnone =>
      List.ne_nil_of_mem ht (firstEvidence_eq_none.1 hnone)
    have hle := (firstEvidence_eq_some hf).2 t ht
    exact List.ne_nil_of_mem (List.mem_filter.2
      ⟨mem_firsts.2 ⟨r, hr, hf⟩, decide_eq_true (hle.trans_lt hlt)⟩)

/-- A first evidence that is neither in the window nor before it comes after it. -/
theorem afterWindow_ne_nil (hne : ws ≠ we) (hover : ¬ TextsOverlap phases covering ws we)
    (hbefore : ¬ TextsBefore phases covering ws we) :
    (wholeRunFirsts (covering.map (summarizeRun phases))).filter
        (fun first => !(first < ws) && we < first) ≠ [] ↔ TextsAny phases covering := by
  rw [textsAny_iff]
  constructor
  · intro h
    obtain ⟨f, hf⟩ := List.exists_mem_of_ne_nil _ h
    obtain ⟨r, hr, hf⟩ := mem_firsts.1 (List.mem_of_mem_filter hf)
    obtain ⟨⟨t, ht, -⟩, -⟩ := firstEvidence_eq_some hf
    exact ⟨r, hr, List.ne_nil_of_mem ht⟩
  · rintro ⟨r, hr, hlead⟩
    obtain ⟨f, hf⟩ := Option.ne_none_iff_exists'.1 fun hnone => hlead (firstEvidence_eq_none.1 hnone)
    obtain ⟨⟨t, ht, rfl⟩, -⟩ := firstEvidence_eq_some hf
    obtain ⟨htr, hfiled⟩ := mem_leadingTransitions ht
    obtain ⟨p, hp⟩ := Option.isSome_iff_exists.1 hfiled
    obtain ⟨hstart, hstop⟩ := filedUnder_spec hp
    have hnotBefore : ¬ t.occurredUtc < ws := fun hlt =>
      hbefore (by rw [TextsBefore, if_neg hne]; exact ⟨r, hr, t, ht, hlt⟩)
    have hafter : we < t.occurredUtc := by
      by_contra hle
      rw [TextsOverlap, if_neg hne] at hover
      exact hover ⟨r, hr, t, htr, p, hp, (le_of_not_gt hnotBefore).trans_lt hstop,
        hstart.trans (le_of_not_gt hle)⟩
    refine List.ne_nil_of_mem (List.mem_filter.2 ⟨mem_firsts.2 ⟨r, hr, hf⟩, ?_⟩)
    simp [hnotBefore, hafter]

theorem phaseFinding_decides (hne : ws ≠ we) :
    Decides (TextsOverlap phases covering ws we) (TextsBefore phases covering ws we)
      (TextsAny phases covering)
      (phaseFinding ws we (covering.map (summarizeRun phases))).relation := by
  have hover : _ ↔ TextsOverlap phases covering ws we := inWindow_ne_nil hne
  have hbefore : _ ↔ TextsBefore phases covering ws we := beforeWindow_ne_nil hne
  have hafter : ¬ TextsOverlap phases covering ws we → ¬ TextsBefore phases covering ws we →
      (_ ↔ TextsAny phases covering) := afterWindow_ne_nil hne
  unfold phaseFinding
  dsimp only
  -- the three sorted lists decide one after the other
  cases hin : sortBy compare (evidenceInWindow ws we (covering.map (summarizeRun phases))) with
  | cons first rest => exact hover.1 (List.ne_nil_of_mem (sortBy_head hin).1)
  | nil =>
    have hnotIn : ¬ TextsOverlap phases covering ws we :=
      fun h => hover.2 h (sortBy_eq_nil.1 hin)
    cases hbef : sortBy compare
        ((wholeRunFirsts (covering.map (summarizeRun phases))).filter fun first => first < ws) with
    | cons first rest => exact ⟨hnotIn, hbefore.1 (List.ne_nil_of_mem (sortBy_head hbef).1)⟩
    | nil =>
      have hnotBefore : ¬ TextsBefore phases covering ws we :=
        fun h => hbefore.2 h (sortBy_eq_nil.1 hbef)
      have hany := hafter hnotIn hnotBefore
      cases haft : sortBy compare ((wholeRunFirsts (covering.map (summarizeRun phases))).filter
          fun first => !(first < ws) && we < first) with
      | cons first rest =>
        exact ⟨hnotIn, hnotBefore, hany.1 (List.ne_nil_of_mem (sortBy_head haft).1)⟩
      | nil => exact ⟨hnotIn, hnotBefore, fun h => hany.2 h (sortBy_eq_nil.1 haft)⟩

/-- The earliest evidence is the earliest text that is counted. -/
theorem pointFinding_decides :
    Decides (TextsOverlap phases covering ws ws) (TextsBefore phases covering ws ws)
      (TextsAny phases covering)
      (pointFinding ws (covering.map (summarizeRun phases))).relation := by
  rw [TextsOverlap, TextsBefore, if_pos rfl, if_pos rfl]
  unfold pointFinding
  dsimp only
  generalize hlist : (covering.map (summarizeRun phases)).flatMap
    (fun rs => rs.phases.filterMap (·.firstEvidenceUtc)) = firstEvidences
  have hmem {f : String} : f ∈ firstEvidences ↔
      ∃ r ∈ covering, ∃ i, firstEvidence (phaseTransitions phases r i) = some f := by
    rw [← hlist, List.flatMap_map, List.mem_flatMap]
    exact exists_congr fun r => and_congr_right fun _ => mem_evidence
  have hcounted {f : String} (hf : f ∈ firstEvidences) :
      ∃ r ∈ covering, ∃ t ∈ r.transitions, (filedUnder phases t).isSome ∧ t.occurredUtc = f := by
    obtain ⟨r, hr, i, hf⟩ := hmem.1 hf
    obtain ⟨⟨t, ht, hocc⟩, -⟩ := firstEvidence_eq_some hf
    obtain ⟨ht, hi⟩ := mem_phaseTransitions.1 ht
    exact ⟨r, hr, t, ht, filedUnder_isSome.2 ⟨i, hi⟩, hocc⟩
  have hbelow {r : ComparedRun} (hr : r ∈ covering) {t : RunTransition} (ht : t ∈ r.transitions)
      (hfiled : (filedUnder phases t).isSome) : ∃ f ∈ firstEvidences, f ≤ t.occurredUtc := by
    obtain ⟨i, hi⟩ := filedUnder_isSome.1 hfiled
    have htp := mem_phaseTransitions.2 ⟨ht, hi⟩
    obtain ⟨f, hf⟩ := Option.ne_none_iff_exists'.1 fun hnone =>
      List.ne_nil_of_mem htp (firstEvidence_eq_none.1 hnone)
    exact ⟨f, hmem.2 ⟨r, hr, i, hf⟩, (firstEvidence_eq_some hf).2 t htp⟩
  cases hsort : sortBy compare firstEvidences with
  | nil =>
    have hnil := sortBy_eq_nil.1 hsort
    have hnone {r : ComparedRun} (hr : r ∈ covering) {t : RunTransition} (ht : t ∈ r.transitions) :
        ¬ (filedUnder phases t).isSome := by
      intro hfiled
      obtain ⟨f, hf, -⟩ := hbelow hr ht hfiled
      rw [hnil] at hf
      cases hf
    refine ⟨?_, ?_, ?_⟩
    · rintro ⟨⟨r, hr, t, ht, hfiled, -⟩, -⟩
      exact hnone hr ht hfiled
    · rintro ⟨r, hr, t, ht, hfiled, -⟩
      exact hnone hr ht hfiled
    · rintro ⟨r, hr, t, ht, hfiled⟩
      exact hnone hr ht hfiled
  | cons first rest =>
    obtain ⟨hfirst, hleast⟩ := sorted_head_le hsort
    obtain ⟨r, hr, t, ht, hfiled, hocc⟩ := hcounted hfirst
    have hall : ∀ r ∈ covering, ∀ t ∈ r.transitions, (filedUnder phases t).isSome →
        first ≤ t.occurredUtc := by
      intro r hr t ht hfiled
      obtain ⟨f, hf, hle⟩ := hbelow hr ht hfiled
      exact (hleast f hf).trans hle
    dsimp only
    by_cases hlt : first < ws
    · rw [if_pos hlt]
      refine ⟨?_, r, hr, t, ht, hfiled, hocc ▸ hlt⟩
      rintro ⟨-, hle⟩
      exact absurd (hocc ▸ hlt) (hle r hr t ht hfiled).not_gt
    · rw [if_neg hlt]
      have hnotBefore : ¬ ∃ r ∈ covering, ∃ t ∈ r.transitions,
          (filedUnder phases t).isSome ∧ t.occurredUtc < ws := by
        rintro ⟨r, hr, t, ht, hfiled, hbefore⟩
        exact hlt ((hall r hr t ht hfiled).trans_lt hbefore)
      by_cases heq : first = ws
      · rw [if_pos heq]
        exact ⟨⟨r, hr, t, ht, hfiled, hocc.trans heq⟩, fun r hr t ht hfiled =>
          heq ▸ hall r hr t ht hfiled⟩
      · rw [if_neg heq]
        refine ⟨?_, hnotBefore, r, hr, t, ht, hfiled⟩
        rintro ⟨⟨r', hr', t', ht', hfiled', rfl⟩, -⟩
        exact heq ((hall r' hr' t' ht' hfiled').antisymm (le_of_not_gt hlt))

theorem windowFinding_decides (hcover : covering ≠ []) :
    Decides (TextsOverlap phases covering ws we) (TextsBefore phases covering ws we)
      (TextsAny phases covering)
      (windowFinding ws we (covering.map (summarizeRun phases))).relation := by
  rw [windowFinding, if_neg (mt List.map_eq_nil_iff.1 hcover)]
  by_cases heq : ws = we
  · subst heq
    rw [if_pos rfl]
    exact pointFinding_decides
  · rw [if_neg heq]
    exact phaseFinding_decides heq

end

/-! ## Texts and instants -/

section
variable {env : ComparisonEnv} {cs : CaseStudy} {c : CaseStudyClaim}

/-- The row of a claim with a window has the relation of its finding, linked runs or not. -/
theorem interpretation_eq (hc : c.Compared) {ws we : String}
    (hw : claimWindow env cs.phases c = some (ws, we)) :
    (comparisonRow env cs c).interpretation =
      (windowFinding ws we
        ((coveringRuns env cs.runs ws we).map (summarizeRun cs.phases))).relation := by
  rw [comparisonRow, if_neg hc.2]
  by_cases hruns : cs.runs = []
  · rw [if_pos hruns, hruns]
    rfl
  · rw [if_neg hruns]
    change (claimFinding env cs c).relation = _
    rw [claimFinding, hw]

theorem ne_indeterminate_of_decides {o b a : Prop} {rel : ComparisonRelation}
    (h : Decides o b a rel) : rel ≠ .indeterminate := by
  rintro rfl
  exact h

/-- The relation of the texts is the one of the instants exactly where their tests agree. -/
theorem interpretation_eq_iff (hc : c.Compared) {ws we : String}
    (hw : claimWindow env cs.phases c = some (ws, we)) (w : InstantWindow) :
    (comparisonRow env cs c).interpretation = instantRelation env cs.runs w ↔
      TextsAgree env cs ws we w := by
  rw [interpretation_eq hc hw, instantRelation, TextsAgree]
  by_cases htext : coveringRuns env cs.runs ws we = []
  · rw [htext]
    by_cases hinst : coveringInstants env cs.runs w = []
    · rw [if_pos hinst]
      exact iff_of_true rfl ⟨iff_of_true rfl hinst, fun h => absurd rfl h⟩
    · rw [if_neg hinst]
      refine iff_of_false ?_ fun h => hinst (h.1.1 rfl)
      exact fun h => ne_indeterminate_of_decides (decides_verdict _ _ _) h.symm
  · have hdecides : Decides _ _ _ (windowFinding ws we
        ((coveringRuns env cs.runs ws we).map (summarizeRun cs.phases))).relation :=
      windowFinding_decides htext
    by_cases hinst : coveringInstants env cs.runs w = []
    · rw [if_pos hinst]
      exact iff_of_false (ne_indeterminate_of_decides hdecides) fun h => htext (h.1.2 hinst)
    · rw [if_neg hinst, decides_eq_iff hdecides (decides_verdict _ _ _)]
      exact ⟨fun h => ⟨iff_of_false htext hinst, fun _ => h⟩, fun h => h.2 htext⟩

/-- Which claims get the relation of the instants. -/
theorem relationLaw_iff (hc : c.Compared) :
    RelationLaw env cs c ↔ ∀ ws we w, claimWindow env cs.phases c = some (ws, we) →
      claimInstants env cs.phases c = some w → TextsAgree env cs ws we w := by
  constructor
  · intro h ws we w hw hi
    exact (interpretation_eq_iff hc hw w).1 (h w hi)
  · intro h w hi
    obtain ⟨ws, we, hw⟩ := claimWindow_of_instants hi
    exact (interpretation_eq_iff hc hw w).2 (h ws we w hw hi)

end

/-! ## Runs -/

namespace PilotRun

/-- One run of the plan, with one transition. -/
def studyAt (time : String) : CaseStudy :=
  { study "phase:0" with
    runs := [⟨7, some (planPayload manifest true), [⟨"Withdrawal", time, "rv2|192.0.2.1|10.0.0.0/8"⟩]⟩] }

theorem compared (anchor : String) : (claimOf anchor).Compared := by
  have htype : "ReportedTimeline" ≠ processFinding := by decide
  have hvisible : "PotentiallyVisibleInPublicBgp" ≠ notVisible := by decide
  exact ⟨htype, hvisible⟩

theorem relationLaw_pilotRun :
    RelationLaw env (studyAt "2019-08-21T05:00:00Z") (claimOf "phase:0") ↔ ∀ ws we w,
      claimWindow env (studyAt "2019-08-21T05:00:00Z").phases (claimOf "phase:0") = some (ws, we) →
      claimInstants env (studyAt "2019-08-21T05:00:00Z").phases (claimOf "phase:0") = some w →
        TextsAgree env (studyAt "2019-08-21T05:00:00Z") ws we w :=
  relationLaw_iff (compared _)

/-- **Bug**: a withdrawal at 11:00, in the next phase, overlaps the phase from 04:00 to 10:00. And one
at 04:00 that is spelled as the writer does it is not observed at all. -/
theorem next_phase_overlaps :
    (claimOf "phase:0").Compared ∧
      ¬ RelationLaw env (studyAt "2019-08-21T11:00:00Z") (claimOf "phase:0") ∧
      ¬ RelationLaw env (studyAt "2019-08-21T04:00:00+00:00") (claimOf "phase:0") := by
  have hw : claimInstants env phases (claimOf "phase:0") =
      some (.span (1566360000 * 1000000000) (1566381600 * 1000000000)) := by decide +kernel
  have hnext : (comparisonRow env (studyAt "2019-08-21T11:00:00Z") (claimOf "phase:0")).interpretation =
      .overlapping := by decide +kernel
  have hafter : instantRelation env (studyAt "2019-08-21T11:00:00Z").runs
      (.span (1566360000 * 1000000000) (1566381600 * 1000000000)) = .after := by decide +kernel
  have hmissed : (comparisonRow env (studyAt "2019-08-21T04:00:00+00:00")
      (claimOf "phase:0")).interpretation = .noObservedCounterpart := by decide +kernel
  have hstart : instantRelation env (studyAt "2019-08-21T04:00:00+00:00").runs
      (.span (1566360000 * 1000000000) (1566381600 * 1000000000)) = .overlapping := by decide +kernel
  refine ⟨compared _, fun h => ?_, fun h => ?_⟩
  · have heq := h _ hw
    rw [hnext, hafter] at heq
    cases heq
  · have heq := h _ hw
    rw [hmissed, hstart] at heq
    cases heq

end PilotRun

end Inim
