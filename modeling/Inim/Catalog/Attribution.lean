import Inim.Catalog.ObserverCompare
import Inim.Lib.Guards

/-!
# What the comparison attributes to which observer

The module doc of `observer_compare.rs` promises that each run keeps its own evidence and that
the layer "only COMPARES per normalized prefix across collectors". `Attributed` says so of a
result: every row is marked by the transitions of its own run, collector, peer and prefix, and
`changed_at` lists the collectors at which some stream of the prefix changed.
`observerComparison_attributed` gives the condition: no transition is matched to a row of
another stream. The panic has its own exact condition, `TimesPresent`.
-/

namespace Inim

open Inim.Lib

/-- The transitions of the stream `s` of `run`. -/
def ownTransitions (run : LinkedRun) (s : StreamRow) : List TransitionRow :=
  run.transitions.filter fun t =>
    t.collector == s.collector && t.peer == s.peer && t.pfx == s.pfx

/-- The row of `s` marked by its own transitions only. -/
def ownRow (run : LinkedRun) (s : StreamRow) : ObserverComparisonRow :=
  { (ownTransitions run s).foldl markRow (rowOf run.family s) with
    firstChangeUtc := (ownTransitions run s).foldl earlier none }

/-- Some stream of prefix `p` at collector `c` changed: it has a transition, or its summary says
that it went away and came back. -/
def ChangedAt (runs : List LinkedRun) (p c : String) : Prop :=
  ∃ run ∈ runs, ∃ s ∈ run.streams, s.pfx = p ∧ s.collector = c ∧
    (ownTransitions run s ≠ [] ∨ s.wentAndCame = true)

structure Attributed (runs : List LinkedRun) (out : ObserverComparison) : Prop where
  rows : out.rows = sortBy rowOrder (runs.flatMap fun run => run.streams.map (ownRow run))
  changedAt : ∀ st ∈ out.statements, ∀ c, c ∈ st.changedAt ↔ ChangedAt runs st.pfx c
  statement : ∀ st ∈ out.statements, st.changedAt.Nodup ∧
    (2 ≤ st.changedAt.length → st.statement = observedAt st.changedAt.length) ∧
    (st.changedAt.length < 2 → ∀ n, st.statement ≠ observedAt n)

/-- Every transition matched to a row is of the row's own stream. -/
def OwnTransitionsOnly (runs : List LinkedRun) : Prop :=
  ∀ before run after, runs = before ++ run :: after → ∀ s ∈ run.streams,
    (∀ other ∈ before ++ after, other.streams.any (·.collector == s.collector) = true →
      ∀ t ∈ other.transitions, t.pfx ≠ s.pfx) ∧
    ∀ t ∈ run.transitions, t.pfx = s.pfx → t.collector = s.collector ∧ t.peer = s.peer

/-- Whenever the summaries alone say that a prefix changed at two collectors, some transition is
matched to a row of the prefix. -/
def TimesPresent (runs : List LinkedRun) : Prop :=
  ∀ run₁ ∈ runs, ∀ s₁ ∈ run₁.streams, ∀ run₂ ∈ runs, ∀ s₂ ∈ run₂.streams,
    s₁.wentAndCame = true → s₂.wentAndCame = true → s₁.pfx = s₂.pfx →
    s₁.collector ≠ s₂.collector →
    ∃ run ∈ runs, ∃ s ∈ run.streams, s.pfx = s₁.pfx ∧ matched runs s.collector s.pfx ≠ []

variable {runs : List LinkedRun} {run : LinkedRun} {s : StreamRow} {row : ObserverComparisonRow}

/-! ## Rows and streams -/

theorem mem_rowsFrom {f : FirstChange} : row ∈ rowsFrom f runs ↔
    ∃ before run after, runs = before ++ run :: after ∧ ∃ s ∈ run.streams,
      row = setFirst f (markAll (run :: after) (rowOf run.family s)) := by
  induction runs with
  | nil => simp [rowsFrom]
  | cons r runs ih =>
    rw [rowsFrom, List.mem_append, ih]
    constructor
    · rintro (h | ⟨before, run, after, rfl, h⟩)
      · obtain ⟨s, hs, rfl⟩ := List.mem_map.1 h
        exact ⟨[], r, runs, rfl, s, hs, rfl⟩
      · exact ⟨r :: before, run, after, rfl, h⟩
    · rintro ⟨before, run, after, heq, s, hs, rfl⟩
      cases before with
      | nil =>
        cases heq
        exact Or.inl (List.mem_map_of_mem hs)
      | cons b before =>
        cases heq
        exact Or.inr ⟨before, run, after, rfl, s, hs, rfl⟩

theorem marks_firstChange (ts : List TransitionRow) (row : ObserverComparisonRow) :
    (ts.foldl markRow row).firstChangeUtc = row.firstChangeUtc := by
  induction ts generalizing row with
  | nil => rfl
  | cons t ts ih => exact ih (markRow row t)

theorem marks_visible (ts : List TransitionRow) (row : ObserverComparisonRow) :
    (ts.foldl markRow row).baselineVisibility = row.baselineVisibility := by
  induction ts generalizing row with
  | nil => rfl
  | cons t ts ih => exact ih (markRow row t)

/-- A mark never takes an absence back, and without a mark none appears. -/
theorem marks_absence (ts : List TransitionRow) (row : ObserverComparisonRow) :
    (row.temporaryAbsence.isSome = true → (ts.foldl markRow row).temporaryAbsence.isSome = true) ∧
      ((ts.foldl markRow row).temporaryAbsence.isSome = true →
        row.temporaryAbsence.isSome = true ∨ ts ≠ []) := by
  refine ⟨fun h => ?_, fun h => ?_⟩
  · induction ts generalizing row with
    | nil => exact h
    | cons t ts ih =>
      refine ih (markRow row t) ?_
      simp only [markRow]
      split
      · rfl
      · exact h
  · cases ts with
    | nil => exact Or.inl h
    | cons t ts => exact Or.inr (by simp)

/-- What the statements read of a row: which stream it is, when it first changed, and whether
it counts as changed. -/
structure RowOf (runs : List LinkedRun) (s : StreamRow) (row : ObserverComparisonRow) : Prop where
  pfx : row.pfx = s.pfx
  collector : row.collector = s.collector
  visible : row.baselineVisibility = true
  first : row.firstChangeUtc.isSome = true ↔ matched runs s.collector s.pfx ≠ []
  changed : row.changed = true ↔ matched runs s.collector s.pfx ≠ [] ∨ s.wentAndCame = true

theorem rowOf_spec (run : LinkedRun) (s : StreamRow) {before after : List LinkedRun}
    (heq : runs = before ++ run :: after) :
    RowOf runs s (setFirst (firstAfter (fun _ => none) runs)
      (markAll (run :: after) (rowOf run.family s))) := by
  obtain ⟨hp, hc⟩ := marks_key (rowOf run.family s)
    (matched (run :: after) (rowOf run.family s).collector (rowOf run.family s).pfx)
  have hfirst := marks_firstChange
    (matched (run :: after) (rowOf run.family s).collector (rowOf run.family s).pfx)
    (rowOf run.family s)
  have hvis := marks_visible
    (matched (run :: after) (rowOf run.family s).collector (rowOf run.family s).pfx)
    (rowOf run.family s)
  obtain ⟨hkeep, hgot⟩ := marks_absence
    (matched (run :: after) (rowOf run.family s).collector (rowOf run.family s).pfx)
    (rowOf run.family s)
  rw [← markAll] at hp hc hfirst hvis hkeep hgot
  have hsub : matched (run :: after) s.collector s.pfx ≠ [] → matched runs s.collector s.pfx ≠ [] := by
    intro h
    rw [heq, matched, List.flatMap_append, ← matched, ← matched]
    simp [h]
  have hF : (firstAfter (fun _ => none) runs (s.collector, s.pfx)).isSome = true ↔
      matched runs s.collector s.pfx ≠ [] := by
    simp [firstAfter, earlier_isSome]
  have habs : (rowOf run.family s).temporaryAbsence.isSome = true ↔ s.wentAndCame = true := by
    simp only [rowOf]
    split <;> simp_all
  generalize markAll (run :: after) (rowOf run.family s) = m at *
  have hkey : firstAfter (fun _ => none) runs (m.collector, m.pfx) =
      firstAfter (fun _ => none) runs (s.collector, s.pfx) := by
    rw [hc, hp]
    rfl
  have hnone : m.firstChangeUtc = none := hfirst
  have h1 : (setFirst (firstAfter (fun _ => none) runs) m).firstChangeUtc.isSome = true ↔
      matched runs s.collector s.pfx ≠ [] := by
    rw [← hF]
    simp only [setFirst, hkey]
    split
    · rename_i ts hts
      simp [hts]
    · rename_i hts
      simp [hts, hnone]
  have h2 : (setFirst (firstAfter (fun _ => none) runs) m).temporaryAbsence = m.temporaryAbsence := by
    simp only [setFirst]
    split <;> rfl
  have h3 : (setFirst (firstAfter (fun _ => none) runs) m).baselineVisibility = m.baselineVisibility := by
    simp only [setFirst]
    split <;> rfl
  refine ⟨(setFirst_pfx _ _).trans hp, (setFirst_collector _ _).trans hc, h3.trans hvis, h1, ?_⟩
  rw [ObserverComparisonRow.changed, Bool.or_eq_true, h1, h2]
  constructor
  · rintro (h | h)
    · exact Or.inl h
    · rcases hgot h with h | h
      · exact Or.inr (habs.1 h)
      · exact Or.inl (hsub h)
  · rintro (h | h)
    · exact Or.inl h
    · exact Or.inr (hkeep (habs.2 h))

/-- Every row is the row of some stream, and every stream has its row. -/
theorem rowOf_of_mem (h : row ∈ comparisonRows runs) :
    ∃ run ∈ runs, ∃ s ∈ run.streams, RowOf runs s row := by
  rw [comparisonRows_eq, mem_rowsFrom] at h
  obtain ⟨before, run, after, heq, s, hs, rfl⟩ := h
  exact ⟨run, by simp [heq], s, hs, rowOf_spec run s heq⟩

theorem mem_of_stream (hrun : run ∈ runs) (hs : s ∈ run.streams) :
    ∃ row ∈ comparisonRows runs, RowOf runs s row := by
  obtain ⟨before, after, heq⟩ := List.append_of_mem hrun
  refine ⟨_, ?_, rowOf_spec run s heq⟩
  rw [comparisonRows_eq, mem_rowsFrom]
  exact ⟨before, run, after, heq, s, hs, rfl⟩

/-! ## Statements -/

theorem mem_collectorsOf {rows : List ObserverComparisonRow} {c : String} :
    c ∈ collectorsOf rows ↔ ∃ row ∈ rows, row.collector = c := by
  simp [collectorsOf]

theorem nodup_collectorsOf (rows : List ObserverComparisonRow) : (collectorsOf rows).Nodup :=
  (sortBy_perm _ _).nodup_iff.2 (List.nodup_dedup _)

/-- Two members make a list without repetitions long, and the other way round. -/
theorem two_le_length {l : List String} (h : l.Nodup) :
    2 ≤ l.length ↔ ∃ a ∈ l, ∃ b ∈ l, a ≠ b := by
  constructor
  · intro hl
    match l, hl, h with
    | a :: b :: rest, _, h =>
      have hne : a ≠ b := by
        simp only [List.nodup_cons, List.mem_cons, not_or] at h
        exact h.1.1
      exact ⟨a, by simp, b, by simp, hne⟩
  · rintro ⟨a, ha, b, hb, hne⟩
    match l, ha, hb with
    | [x], ha, hb => exact absurd ((List.mem_singleton.1 ha).trans (List.mem_singleton.1 hb).symm) hne
    | _ :: _ :: _, _, _ => simp

theorem timesOf_eq_nil {group : List ObserverComparisonRow} :
    timesOf group = [] ↔ ∀ row ∈ group, row.firstChangeUtc.isSome = false := by
  rw [timesOf, ← List.length_eq_zero_iff, (sortBy_perm _ _).length_eq, List.length_eq_zero_iff,
    List.filterMap_eq_nil_iff]
  simp

/-- The texts are missing exactly when `times[0]` is. -/
theorem statementTexts_eq_none {v c : List String} {group : List ObserverComparisonRow} :
    statementTexts v c group = none ↔ 2 ≤ c.length ∧ timesOf group = [] := by
  unfold statementTexts
  match c.length with
  | 0 =>
    simp only
    split <;> simp
  | 1 => simp
  | n + 2 =>
    simp only
    cases ht : timesOf group with
    | nil => simp [sameTimes]
    | cons a rest => split <;> simp

theorem observedAt_ne {a : String} (n : Nat) (h : a.toList.take 10 ≠ "Observed a".toList) :
    a ≠ observedAt n := by
  rintro rfl
  apply h
  rw [observedAt, String.toList_append, String.toList_append, List.append_assoc]
  rfl

theorem statementTexts_spec {v c : List String} {group : List ObserverComparisonRow}
    {text note : String} (h : statementTexts v c group = some (text, note)) :
    (2 ≤ c.length → text = observedAt c.length) ∧
      (c.length < 2 → ∀ n, text ≠ observedAt n) := by
  unfold statementTexts at h
  match hn : c.length with
  | 0 =>
    rw [hn] at h
    refine ⟨by simp, fun _ n => ?_⟩
    simp only at h
    split at h <;> cases h <;> exact observedAt_ne n (by decide)
  | 1 =>
    rw [hn] at h
    refine ⟨by simp, fun _ n => ?_⟩
    cases h
    exact observedAt_ne n (by decide)
  | k + 2 =>
    rw [hn] at h
    refine ⟨fun _ => ?_, fun hlt => absurd hlt (by omega)⟩
    simp only at h
    split at h
    · obtain ⟨first, -, heq⟩ := Option.map_eq_some_iff.1 h
      cases heq
      rfl
    · cases h
      rfl

theorem statementOf_spec {p : String} {group : List ObserverComparisonRow} {st : PrefixStatement}
    (h : statementOf p group = some st) :
    st.pfx = p ∧ st.changedAt = collectorsOf (group.filter (·.changed)) ∧
      (2 ≤ st.changedAt.length → st.statement = observedAt st.changedAt.length) ∧
      (st.changedAt.length < 2 → ∀ n, st.statement ≠ observedAt n) := by
  obtain ⟨⟨text, note⟩, htexts, rfl⟩ := Option.map_eq_some_iff.1 h
  exact ⟨rfl, rfl, statementTexts_spec htexts⟩

/-! ## The result -/

/-- The rows of one prefix, as the statement loop sees them. -/
theorem mem_group {p : String} :
    row ∈ (sortBy rowOrder (comparisonRows runs)).filter (·.pfx == p) ↔
      row ∈ comparisonRows runs ∧ row.pfx = p := by
  simp

theorem mem_changedCols {p c : String} :
    c ∈ collectorsOf (((sortBy rowOrder (comparisonRows runs)).filter (·.pfx == p)).filter
        (·.changed)) ↔
      ∃ run ∈ runs, ∃ s ∈ run.streams, s.pfx = p ∧ s.collector = c ∧
        (matched runs s.collector s.pfx ≠ [] ∨ s.wentAndCame = true) := by
  rw [mem_collectorsOf]
  constructor
  · rintro ⟨row, hrow, hc⟩
    obtain ⟨hg, hch⟩ := List.mem_filter.1 hrow
    obtain ⟨hm, hp⟩ := mem_group.1 hg
    obtain ⟨run, hrun, s, hs, hof⟩ := rowOf_of_mem hm
    exact ⟨run, hrun, s, hs, hof.pfx.symm.trans hp, hof.collector.symm.trans hc, hof.changed.1 hch⟩
  · rintro ⟨run, hrun, s, hs, hp, hc, hch⟩
    obtain ⟨row, hm, hof⟩ := mem_of_stream hrun hs
    exact ⟨row, List.mem_filter.2 ⟨mem_group.2 ⟨hm, hof.pfx.trans hp⟩, hof.changed.2 hch⟩,
      hof.collector.trans hc⟩

/-- The statement loop panics at `p` exactly when the summaries alone name two collectors. -/
theorem statement_panics_iff {p : String} :
    statementOf p ((sortBy rowOrder (comparisonRows runs)).filter (·.pfx == p)) = none ↔
      (∃ run₁ ∈ runs, ∃ s₁ ∈ run₁.streams, ∃ run₂ ∈ runs, ∃ s₂ ∈ run₂.streams,
        s₁.wentAndCame = true ∧ s₂.wentAndCame = true ∧ s₁.pfx = p ∧ s₂.pfx = p ∧
        s₁.collector ≠ s₂.collector) ∧
      ∀ run ∈ runs, ∀ s ∈ run.streams, s.pfx = p → matched runs s.collector s.pfx = [] := by
  have hnone : timesOf ((sortBy rowOrder (comparisonRows runs)).filter (·.pfx == p)) = [] ↔
      ∀ run ∈ runs, ∀ s ∈ run.streams, s.pfx = p → matched runs s.collector s.pfx = [] := by
    rw [timesOf_eq_nil]
    constructor
    · intro h run hrun s hs hp
      obtain ⟨row, hm, hof⟩ := mem_of_stream hrun hs
      have hf := h row (mem_group.2 ⟨hm, hof.pfx.trans hp⟩)
      by_contra hne
      rw [hof.first.2 hne] at hf
      cases hf
    · intro h row hrow
      obtain ⟨hm, hp⟩ := mem_group.1 hrow
      obtain ⟨run, hrun, s, hs, hof⟩ := rowOf_of_mem hm
      rw [Bool.eq_false_iff]
      exact fun hf => hof.first.1 hf (h run hrun s hs (hof.pfx.symm.trans hp))
  simp only [statementOf, Option.map_eq_none_iff]
  rw [statementTexts_eq_none, hnone, and_congr_left_iff, two_le_length (nodup_collectorsOf _)]
  intro hno
  simp only [mem_changedCols]
  constructor
  · rintro ⟨a, ⟨run₁, h₁, s₁, hs₁, hp₁, rfl, hc₁⟩, b, ⟨run₂, h₂, s₂, hs₂, hp₂, rfl, hc₂⟩, hne⟩
    exact ⟨run₁, h₁, s₁, hs₁, run₂, h₂, s₂, hs₂,
      hc₁.resolve_left fun h => h (hno run₁ h₁ s₁ hs₁ hp₁),
      hc₂.resolve_left fun h => h (hno run₂ h₂ s₂ hs₂ hp₂), hp₁, hp₂, hne⟩
  · rintro ⟨run₁, h₁, s₁, hs₁, run₂, h₂, s₂, hs₂, hw₁, hw₂, hp₁, hp₂, hne⟩
    exact ⟨_, ⟨run₁, h₁, s₁, hs₁, hp₁, rfl, Or.inr hw₁⟩, _,
      ⟨run₂, h₂, s₂, hs₂, hp₂, rfl, Or.inr hw₂⟩, hne⟩

theorem build_eq (runs : List LinkedRun) :
    buildObserverComparison runs =
      ((sortBy compare ((sortBy rowOrder (comparisonRows runs)).map (·.pfx)).dedup).mapM fun p =>
        statementOf p ((sortBy rowOrder (comparisonRows runs)).filter (·.pfx == p))).map
      fun statements => ⟨sortBy rowOrder (comparisonRows runs), statements⟩ := by
  simp only [buildObserverComparison, bind, pure, Option.map_eq_bind]
  rfl

/-- **The function returns exactly when `times[0]` is always there.** -/
theorem build_isSome_iff (runs : List LinkedRun) :
    (buildObserverComparison runs).isSome = true ↔ TimesPresent runs := by
  rw [build_eq, Option.isSome_map, mapM_isSome]
  constructor
  · intro h run₁ h₁ s₁ hs₁ run₂ h₂ s₂ hs₂ hw₁ hw₂ hp hne
    obtain ⟨row, hm, hof⟩ := mem_of_stream h₁ hs₁
    have hmem : s₁.pfx ∈ sortBy compare
        ((sortBy rowOrder (comparisonRows runs)).map (·.pfx)).dedup := by
      simp only [mem_sortBy, List.mem_dedup, List.mem_map]
      exact ⟨row, hm, hof.pfx⟩
    have hno := h s₁.pfx hmem
    rw [Ne, statement_panics_iff, not_and] at hno
    have hall := hno ⟨run₁, h₁, s₁, hs₁, run₂, h₂, s₂, hs₂, hw₁, hw₂, rfl, hp.symm, hne⟩
    simp only [not_forall] at hall
    obtain ⟨run, hrun, s, hs, hps, hmat⟩ := hall
    exact ⟨run, hrun, s, hs, hps, hmat⟩
  · intro h p _ hnone
    obtain ⟨⟨run₁, h₁, s₁, hs₁, run₂, h₂, s₂, hs₂, hw₁, hw₂, hp₁, hp₂, hne⟩, hno⟩ :=
      statement_panics_iff.1 hnone
    obtain ⟨run, hrun, s, hs, hps, hmat⟩ :=
      h run₁ h₁ s₁ hs₁ run₂ h₂ s₂ hs₂ hw₁ hw₂ (hp₁.trans hp₂.symm) hne
    exact hmat (hno run hrun s hs (hps.trans hp₁))

/-! ## Only own transitions -/

theorem matched_append (runs₁ runs₂ : List LinkedRun) (c p : String) :
    matched (runs₁ ++ runs₂) c p = matched runs₁ c p ++ matched runs₂ c p := by
  simp [matched]

theorem matched_eq_nil {c p : String}
    (h : ∀ other ∈ runs, other.streams.any (·.collector == c) = true →
      ∀ t ∈ other.transitions, t.pfx ≠ p) : matched runs c p = [] := by
  rw [matched, List.flatMap_eq_nil_iff]
  intro other ho
  split
  · rename_i hc
    rw [List.filter_eq_nil_iff]
    intro t ht
    simpa using h other ho hc t ht
  · rfl

/-- Under the condition, what is matched to a row is what its stream did. -/
theorem matched_own {before after : List LinkedRun} (h : OwnTransitionsOnly (before ++ run :: after))
    (hs : s ∈ run.streams) :
    matched (run :: after) s.collector s.pfx = ownTransitions run s ∧
      matched (before ++ run :: after) s.collector s.pfx = ownTransitions run s := by
  obtain ⟨hother, hself⟩ := h before run after rfl s hs
  have hbefore : matched before s.collector s.pfx = [] :=
    matched_eq_nil fun other ho => hother other (List.mem_append_left _ ho)
  have hafter : matched after s.collector s.pfx = [] :=
    matched_eq_nil fun other ho => hother other (List.mem_append_right _ ho)
  have hrun : matched [run] s.collector s.pfx = ownTransitions run s := by
    have hany : run.streams.any (·.collector == s.collector) = true :=
      List.any_eq_true.2 ⟨s, hs, by simp⟩
    simp only [matched, List.flatMap_cons, List.flatMap_nil, List.append_nil, hany, if_true,
      ownTransitions]
    refine List.filter_congr fun t ht => ?_
    by_cases hp : t.pfx = s.pfx
    · obtain ⟨hc, hpe⟩ := hself t ht hp
      simp [hp, hc, hpe]
    · simp [hp]
  have hsuffix : matched (run :: after) s.collector s.pfx = ownTransitions run s := by
    rw [matched_cons, hrun, hafter, List.append_nil]
  exact ⟨hsuffix, by rw [matched_append, hbefore, hsuffix, List.nil_append]⟩

theorem setFirst_markAll_own {before after : List LinkedRun}
    (h : OwnTransitionsOnly (before ++ run :: after)) (hs : s ∈ run.streams) :
    setFirst (firstAfter (fun _ => none) (before ++ run :: after))
      (markAll (run :: after) (rowOf run.family s)) = ownRow run s := by
  obtain ⟨hsuffix, hall⟩ := matched_own h hs
  have hm : markAll (run :: after) (rowOf run.family s) =
      (ownTransitions run s).foldl markRow (rowOf run.family s) := by
    rw [markAll]
    exact congrArg (List.foldl markRow (rowOf run.family s)) hsuffix
  obtain ⟨hp, hc⟩ := marks_key (rowOf run.family s) (ownTransitions run s)
  have hF : firstAfter (fun _ => none) (before ++ run :: after)
      (((ownTransitions run s).foldl markRow (rowOf run.family s)).collector,
        ((ownTransitions run s).foldl markRow (rowOf run.family s)).pfx) =
      (ownTransitions run s).foldl earlier none := by
    rw [hp, hc, firstAfter]
    exact congrArg (List.foldl earlier none) hall
  rw [hm, setFirst, hF, ownRow]
  split
  · rename_i ts hts
    rw [hts]
  · rename_i hts
    have hfirst := marks_firstChange (ownTransitions run s) (rowOf run.family s)
    rw [hts, ← show (rowOf run.family s).firstChangeUtc = none from rfl, ← hfirst]

theorem rowsFrom_own (before : List LinkedRun) {after : List LinkedRun}
    (h : OwnTransitionsOnly (before ++ after)) :
    rowsFrom (firstAfter (fun _ => none) (before ++ after)) after =
      after.flatMap fun run => run.streams.map (ownRow run) := by
  induction after generalizing before with
  | nil => rfl
  | cons run after ih =>
    have hsplit : before ++ run :: after = (before ++ [run]) ++ after := by simp
    rw [rowsFrom, List.flatMap_cons]
    congr 1
    · exact List.map_congr_left fun s hs => setFirst_markAll_own h hs
    · rw [hsplit] at h ⊢
      exact ih _ h

/-- What a stream did itself is matched to its row. -/
theorem matched_of_own (hrun : run ∈ runs) (hs : s ∈ run.streams) (h : ownTransitions run s ≠ []) :
    matched runs s.collector s.pfx ≠ [] := by
  obtain ⟨t, ht⟩ := List.exists_mem_of_ne_nil _ h
  obtain ⟨htr, hown⟩ := List.mem_filter.1 ht
  simp only [Bool.and_eq_true, beq_iff_eq] at hown
  refine List.ne_nil_of_mem (a := t) (List.mem_flatMap.2 ⟨run, hrun, ?_⟩)
  have hany : run.streams.any (·.collector == s.collector) = true :=
    List.any_eq_true.2 ⟨s, hs, by simp⟩
  rw [if_pos hany]
  exact List.mem_filter.2 ⟨htr, by simp [hown.2]⟩

/-- A statement of the result, traced back to the rows of its prefix. -/
theorem statement_of_mem {out : ObserverComparison} (h : buildObserverComparison runs = some out)
    {st : PrefixStatement} (hst : st ∈ out.statements) :
    (∀ c, c ∈ st.changedAt ↔ ∃ run ∈ runs, ∃ s ∈ run.streams, s.pfx = st.pfx ∧ s.collector = c ∧
        (matched runs s.collector s.pfx ≠ [] ∨ s.wentAndCame = true)) ∧
      st.changedAt.Nodup ∧ (2 ≤ st.changedAt.length → st.statement = observedAt st.changedAt.length) ∧
      (st.changedAt.length < 2 → ∀ n, st.statement ≠ observedAt n) := by
  rw [build_eq, Option.map_eq_some_iff] at h
  obtain ⟨statements, hmap, rfl⟩ := h
  obtain ⟨p, -, hp⟩ := mem_mapM hmap hst
  obtain ⟨rfl, hchanged, htexts⟩ := statementOf_spec hp
  refine ⟨fun c => ?_, ?_, htexts⟩
  · rw [hchanged, mem_changedCols]
  · rw [hchanged]
    exact nodup_collectorsOf _

/-- **Attribution.** The function returns exactly when some time is there for every prefix whose
summaries name two collectors; `changed_at` of what it returns is right for a prefix exactly
when every collector a transition is matched at really changed; and when every transition
matched to a row is of the row's own stream, the whole result is attributed. -/
theorem observerComparison_attributed (runs : List LinkedRun) :
    ((buildObserverComparison runs).isSome = true ↔ TimesPresent runs) ∧
    (∀ out, buildObserverComparison runs = some out → ∀ st ∈ out.statements,
      ((∀ c, c ∈ st.changedAt ↔ ChangedAt runs st.pfx c) ↔
        ∀ run ∈ runs, ∀ s ∈ run.streams, s.pfx = st.pfx →
          matched runs s.collector s.pfx ≠ [] → ChangedAt runs s.pfx s.collector)) ∧
    (OwnTransitionsOnly runs →
      ∀ out, buildObserverComparison runs = some out → Attributed runs out) := by
  have hexact : ∀ out, buildObserverComparison runs = some out → ∀ st ∈ out.statements,
      ((∀ c, c ∈ st.changedAt ↔ ChangedAt runs st.pfx c) ↔
        ∀ run ∈ runs, ∀ s ∈ run.streams, s.pfx = st.pfx →
          matched runs s.collector s.pfx ≠ [] → ChangedAt runs s.pfx s.collector) := by
    intro out hout st hst
    obtain ⟨hmem, -⟩ := statement_of_mem hout hst
    constructor
    · intro h run hrun s hs hp hmat
      rw [hp]
      exact (h s.collector).1 ((hmem _).2 ⟨run, hrun, s, hs, hp, rfl, Or.inl hmat⟩)
    · intro h c
      rw [hmem]
      constructor
      · rintro ⟨run, hrun, s, hs, hp, rfl, hmat | hw⟩
        · rw [← hp]
          exact h run hrun s hs hp hmat
        · exact ⟨run, hrun, s, hs, hp, rfl, Or.inr hw⟩
      · rintro ⟨run, hrun, s, hs, hp, hc, hown | hw⟩
        · exact ⟨run, hrun, s, hs, hp, hc, Or.inl (matched_of_own hrun hs hown)⟩
        · exact ⟨run, hrun, s, hs, hp, hc, Or.inr hw⟩
  refine ⟨build_isSome_iff runs, hexact, fun hown out hout => ⟨?_, fun st hst => ?_, fun st hst => ?_⟩⟩
  · have hrows : out.rows = sortBy rowOrder (comparisonRows runs) := by
      rw [build_eq, Option.map_eq_some_iff] at hout
      obtain ⟨statements, -, rfl⟩ := hout
      rfl
    rw [hrows, comparisonRows_eq]
    exact congrArg (sortBy rowOrder) (rowsFrom_own [] hown)
  · refine (hexact out hout st hst).2 fun run hrun s hs _ hmat => ?_
    obtain ⟨before, after, rfl⟩ := List.append_of_mem hrun
    rw [(matched_own hown hs).2] at hmat
    exact ⟨run, hrun, s, hs, rfl, rfl, Or.inl hmat⟩
  · exact (statement_of_mem hout hst).2

/-! ## One collector's change counted twice, and a panic -/

def stream (collector peer : String) (withdrawn restored : Int) : StreamRow :=
  ⟨collector, peer, "10.0.0.0/8", withdrawn, restored, "Stable"⟩

/-- One run over two collectors; the one transition is of the stream at `rrc00`. -/
def changeAtOne : LinkedRun where
  family := "RouteViews"
  streams := [stream "rrc00" "192.0.2.1" 0 0, stream "rrc01" "192.0.2.2" 0 0]
  transitions := [⟨"PathReplacement", "2019-08-21T16:45:25Z", "rrc00", "192.0.2.1", "10.0.0.0/8"⟩]

/-- One run without transitions whose two streams were withdrawn and restored. -/
def summariesOnly : LinkedRun where
  family := "RouteViews"
  streams := [stream "rrc00" "192.0.2.1" 1 1, stream "rrc01" "192.0.2.2" 1 1]
  transitions := []

/-- **Bug.** The stream at `rrc01` has no transition, but its row carries the other one's, the
statement counts two collectors; and without a transition index the function panics. -/
theorem change_counted_at_two_collectors :
    (buildObserverComparison [changeAtOne]).map (fun out =>
        (out.rows.map fun r => (r.collector, r.pathReplacement, r.firstChangeUtc.isSome),
          out.statements.map fun st => (st.changedAt, st.statement))) =
      some ([("rrc00", true, true), ("rrc01", true, true)],
        [(["rrc00", "rrc01"], "Observed at 2 independent public collectors")]) ∧
    ownTransitions changeAtOne (stream "rrc01" "192.0.2.2" 0 0) = [] ∧
    buildObserverComparison [summariesOnly] = none := by
  decide

end Inim
