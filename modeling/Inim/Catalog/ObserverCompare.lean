import Inim.Lib.SortBy
import Inim.Text

/-!
# Cross-observer comparison (`catalog/observer_compare.rs`)

| here | there |
| --- | --- |
| `StreamRow`, `TransitionRow`, `LinkedRun` | the rows `run_streams` and `run_transitions` read for one linked run, and its family label |
| `ObserverComparisonRow`, `PrefixStatement`, `ObserverComparison` | `observer_compare.rs:22-62` |
| `rowOf`, `markRow`, `noteFirst`            | building a row (`:210-236`), the updates of one transition (`:240-268`) |
| `processRun`                               | one round of the loop over the linked runs (`:202-279`) |
| `statementOf`, `statementTexts`            | the statement of one prefix (`:299-352`); `none` is the panic of `times[0]` |
| `buildObserverComparison`                  | `build_observer_comparison` (`:191-365`) |

`TransitionRow` has the `collector` column of the table; the function selects kind, time, peer
and prefix only (`:142-168`). `visible` and `changed` are filled but never read, so they are not
kept; `first_change` is read by key only and is a function here. Times are RFC 3339 text and
compared as text.

A transition marks every row with its prefix at every collector the run has a stream at,
whatever the row's run, peer and collector are (`matched`). `rows_eq` gives the rows in closed
form; the theorems then compare `matched` with the row's own transitions.
-/

namespace Inim

open Inim.Lib

structure StreamRow where
  collector : String
  peer : String
  pfx : String
  withdrawn : Int
  restored : Int
  transitState : String
deriving DecidableEq, Repr

structure TransitionRow where
  kind : String
  occurred : String
  collector : String
  peer : String
  pfx : String
deriving DecidableEq, Repr

structure LinkedRun where
  family : String
  streams : List StreamRow
  transitions : List TransitionRow
deriving DecidableEq, Repr

structure ObserverComparisonRow where
  pfx : String
  collector : String
  family : String
  peer : String
  firstChangeUtc : Option String
  temporaryAbsence : Option String
  pathReplacement : Bool
  transitDeparture : Bool
  restorationUtc : Option String
  baselineVisibility : Bool
deriving DecidableEq, Repr

structure PrefixStatement where
  pfx : String
  visibleAt : List String
  changedAt : List String
  statement : String
  timingNote : String
deriving DecidableEq, Repr

structure ObserverComparison where
  rows : List ObserverComparisonRow
  statements : List PrefixStatement
deriving DecidableEq, Repr

/-! ## Kinds of transitions, by their text -/

def isWithdrawal (kind : String) : Bool :=
  textContains kind "Withdrawal" || textContains kind "withdrawal"

def isRestoration (kind : String) : Bool :=
  textContains kind "ReturnToBaseline" || textContains kind "restoration"
    || textContains kind "Restoration" || kind == "Restored"

def isPathReplacement (kind : String) : Bool :=
  textContains kind "PathReplacement" || textContains kind "path-replacement"

def isTransitDeparture (kind : String) : Bool :=
  textContains kind "Departure" || textContains kind "departure" || textContains kind "LeftTransit"

/-! ## Rows -/

/-- The summary says that the stream went away and came back. -/
def StreamRow.wentAndCame (s : StreamRow) : Bool := decide (0 < s.withdrawn) && decide (0 < s.restored)

def rowOf (family : String) (s : StreamRow) : ObserverComparisonRow where
  pfx := s.pfx
  collector := s.collector
  family := family
  peer := s.peer
  firstChangeUtc := none
  temporaryAbsence :=
    if s.wentAndCame then some "withdrawn then restored (event window)" else none
  pathReplacement := false
  transitDeparture := decide (0 < s.withdrawn) || s.transitState == "DepartedTransit"
  restorationUtc := if 0 < s.restored then some "event window" else none
  baselineVisibility := true

/-- What one transition writes into a row it is matched to. -/
def markRow (row : ObserverComparisonRow) (t : TransitionRow) : ObserverComparisonRow :=
  { row with
    temporaryAbsence :=
      if isWithdrawal t.kind && row.temporaryAbsence.isNone then some ("withdrawn at " ++ t.occurred)
      else row.temporaryAbsence
    restorationUtc := if isRestoration t.kind then some t.occurred else row.restorationUtc
    pathReplacement := row.pathReplacement || isPathReplacement t.kind
    transitDeparture := row.transitDeparture || isTransitDeparture t.kind }

/-- `first_change`: the earliest time seen for a collector and prefix. -/
abbrev FirstChange := String × String → Option String

def earlier (f : Option String) (t : TransitionRow) : Option String :=
  match f with
  | none => some t.occurred
  | some f => if t.occurred < f then some t.occurred else some f

def noteFirst (f : FirstChange) (key : String × String) (t : TransitionRow) : FirstChange :=
  fun k => if k = key then earlier (f k) t else f k

structure CompareState where
  rows : List ObserverComparisonRow
  firstChange : FirstChange

/-- The keys `(collector, prefix)` of `per_collector_prefix`, in order. -/
def collectorKeys (streams : List StreamRow) : List (String × String) :=
  sortBy (compareLex (compareOn Prod.fst) (compareOn Prod.snd))
    (streams.map fun s => (s.collector, s.pfx)).dedup

/-- One transition at one collector of the run (`:241-270`). -/
def markAt (t : TransitionRow) (st : CompareState) (key : String × String) : CompareState where
  rows := st.rows.map fun row =>
    if row.pfx = t.pfx ∧ row.collector = key.1 then markRow row t else row
  firstChange := noteFirst st.firstChange (key.1, t.pfx) t

/-- Fold the first change into a row. -/
def setFirst (f : FirstChange) (row : ObserverComparisonRow) : ObserverComparisonRow :=
  match f (row.collector, row.pfx) with
  | some ts => { row with firstChangeUtc := some ts }
  | none => row

def processRun (st : CompareState) (run : LinkedRun) : CompareState :=
  let st := { st with rows := st.rows ++ run.streams.map (rowOf run.family) }
  let st := run.transitions.foldl
    (fun st t => (collectorKeys run.streams).foldl (markAt t) st) st
  { st with rows := st.rows.map (setFirst st.firstChange) }

/-! ## Statements -/

/-- `BTreeSet` of the collectors of some rows, in order. -/
def collectorsOf (rows : List ObserverComparisonRow) : List String :=
  sortBy compare (rows.map (·.collector)).dedup

def ObserverComparisonRow.changed (r : ObserverComparisonRow) : Bool :=
  r.firstChangeUtc.isSome || r.temporaryAbsence.isSome

/-- Collector and time of the rows that have a first change, by time, then collector. -/
def timesOf (group : List ObserverComparisonRow) : List (String × String) :=
  sortBy (compareLex (compareOn Prod.snd) (compareOn Prod.fst))
    (group.filterMap fun r => r.firstChangeUtc.map fun t => (r.collector, t))

/-- `windows(2).all(|w| w[0].1 == w[1].1)`. -/
def sameTimes : List (String × String) → Bool
  | [] => true
  | [_] => true
  | a :: b :: rest => a.2 == b.2 && sameTimes (b :: rest)

def observedAt (n : Nat) : String := "Observed at " ++ toString n ++ " independent public collectors"

/-- The `match changed_cols.len()`: statement and timing note. -/
def statementTexts (visibleCols changedCols : List String) (group : List ObserverComparisonRow) :
    Option (String × String) :=
  match changedCols.length with
  | 0 =>
    if visibleCols.isEmpty then
      some ("Insufficient baseline visibility",
        "no selected observer had a baseline stream for this prefix")
    else
      some ("No counterpart at this observer",
        "baseline streams exist but no route-state change was observed")
  | 1 =>
    some ("Observed only at one selected collector",
      "changed at " ++ String.intercalate ", " changedCols)
  | n + 2 =>
    let times := timesOf group
    if sameTimes times then
      -- `times[0]`: out of bounds when no row of the group has a first change
      times.head?.map fun first => (observedAt (n + 2),
        "first observed change at " ++ first.2 ++ " on " ++ first.1)
    else
      some (observedAt (n + 2), "similar route-state change with different timing: "
        ++ String.intercalate ", " (times.map fun x => x.1 ++ " at " ++ x.2))

def statementOf (pfx : String) (group : List ObserverComparisonRow) : Option PrefixStatement :=
  let visibleAt := collectorsOf (group.filter (·.baselineVisibility))
  let changedAt := collectorsOf (group.filter (·.changed))
  (statementTexts visibleAt changedAt group).map fun (statement, timingNote) =>
    { pfx, visibleAt, changedAt, statement, timingNote }

/-- `(prefix, collector, peer, family)`. -/
def rowOrder : ObserverComparisonRow → ObserverComparisonRow → Ordering :=
  compareLex (compareOn (·.pfx)) (compareLex (compareOn (·.collector))
    (compareLex (compareOn (·.peer)) (compareOn (·.family))))

/-- The rows of every linked run, as the loop leaves them. -/
def comparisonRows (runs : List LinkedRun) : List ObserverComparisonRow :=
  (runs.foldl processRun ⟨[], fun _ => none⟩).rows

/-- `none` when the function panics. -/
def buildObserverComparison (runs : List LinkedRun) : Option ObserverComparison := do
  let rows := sortBy rowOrder (comparisonRows runs)
  let statements ← (sortBy compare (rows.map (·.pfx)).dedup).mapM fun p =>
    statementOf p (rows.filter (·.pfx == p))
  return { rows, statements }

/-! ## The rows in closed form -/

/-- The transitions the loops match to the rows of prefix `p` at collector `c`. -/
def matched (runs : List LinkedRun) (c p : String) : List TransitionRow :=
  runs.flatMap fun run =>
    if run.streams.any (·.collector == c) then run.transitions.filter (·.pfx == p) else []

theorem matched_cons (run : LinkedRun) (runs : List LinkedRun) (c p : String) :
    matched (run :: runs) c p = matched [run] c p ++ matched runs c p := by
  simp [matched]

section Marks

variable (row : ObserverComparisonRow) (t : TransitionRow) (f : FirstChange)

@[simp] theorem markRow_pfx : (markRow row t).pfx = row.pfx := rfl
@[simp] theorem markRow_collector : (markRow row t).collector = row.collector := rfl

theorem markRow_idem : markRow (markRow row t) t = markRow row t := by
  simp only [markRow]
  congr 1
  · by_cases hw : isWithdrawal t.kind = true <;>
      by_cases hn : row.temporaryAbsence.isNone = true <;> simp [hw, hn]
  · cases isPathReplacement t.kind <;> simp
  · cases isTransitDeparture t.kind <;> simp
  · split <;> rfl

theorem earlier_idem (f : Option String) : earlier (earlier f t) t = earlier f t := by
  cases f with
  | none => simp [earlier]
  | some f =>
    by_cases h : t.occurred < f <;> simp [earlier, h]

theorem setFirst_pfx : (setFirst f row).pfx = row.pfx := by
  unfold setFirst
  split <;> rfl

theorem setFirst_collector : (setFirst f row).collector = row.collector := by
  unfold setFirst
  split <;> rfl

theorem markRow_setFirst : markRow (setFirst f row) t = setFirst f (markRow row t) := by
  simp only [setFirst, markRow_pfx, markRow_collector]
  split <;> rfl

theorem marks_setFirst (ts : List TransitionRow) :
    ts.foldl markRow (setFirst f row) = setFirst f (ts.foldl markRow row) := by
  induction ts generalizing row with
  | nil => rfl
  | cons t ts ih => rw [List.foldl_cons, markRow_setFirst, ih, List.foldl_cons]

theorem marks_key (ts : List TransitionRow) :
    (ts.foldl markRow row).pfx = row.pfx ∧ (ts.foldl markRow row).collector = row.collector := by
  induction ts generalizing row with
  | nil => exact ⟨rfl, rfl⟩
  | cons t ts ih => exact ih (markRow row t)

/-- A later fold overwrites an earlier one of a smaller map. -/
theorem setFirst_setFirst (g : FirstChange)
    (h : ∀ k, (f k).isSome = true → (g k).isSome = true) :
    setFirst g (setFirst f row) = setFirst g row := by
  have hk : g ((setFirst f row).collector, (setFirst f row).pfx) = g (row.collector, row.pfx) := by
    rw [setFirst_collector, setFirst_pfx]
  cases hf : f (row.collector, row.pfx) with
  | none =>
    have : setFirst f row = row := by simp only [setFirst, hf]
    rw [this]
  | some ts =>
    obtain ⟨u, hu⟩ := Option.isSome_iff_exists.1 (h (row.collector, row.pfx) (by simp [hf]))
    rw [hu] at hk
    simp only [setFirst, hf] at hk ⊢
    simp only [hk]

end Marks

theorem earlier_isSome (f : Option String) (ts : List TransitionRow) :
    (ts.foldl earlier f).isSome = true ↔ f.isSome = true ∨ ts ≠ [] := by
  induction ts generalizing f with
  | nil => simp
  | cons t ts ih =>
    have : (earlier f t).isSome = true := by
      cases f with
      | none => rfl
      | some f =>
        simp only [earlier]
        split <;> rfl
    rw [List.foldl_cons, ih]
    simp [this]

/-- All keys of the run for one transition: each row is marked once, however often its
collector comes up. -/
theorem foldl_markAt (t : TransitionRow) (ks : List (String × String)) (st : CompareState) :
    (ks.foldl (markAt t) st).rows = (st.rows.map fun row =>
        if row.pfx = t.pfx ∧ row.collector ∈ ks.map Prod.fst then markRow row t else row) ∧
      ∀ k, (ks.foldl (markAt t) st).firstChange k =
        if k.2 = t.pfx ∧ k.1 ∈ ks.map Prod.fst then earlier (st.firstChange k) t
        else st.firstChange k := by
  induction ks generalizing st with
  | nil => simp
  | cons key ks ih =>
    rw [List.foldl_cons]
    obtain ⟨ihr, ihf⟩ := ih (markAt t st key)
    constructor
    · rw [ihr]
      simp only [markAt, List.map_map]
      refine List.map_congr_left fun row _ => ?_
      simp only [Function.comp]
      by_cases hp : row.pfx = t.pfx
      · by_cases hk : row.collector = key.1
        · by_cases hm : key.1 ∈ ks.map Prod.fst <;> simp [hp, hk, hm, markRow_idem]
        · have hmem : row.collector ∈ (key :: ks).map Prod.fst ↔ row.collector ∈ ks.map Prod.fst := by
            rw [List.map_cons, List.mem_cons, or_iff_right hk]
          have hno : ¬(row.pfx = t.pfx ∧ row.collector = key.1) := fun h => hk h.2
          simp only [if_neg hno, hmem]
      · simp [hp]
    · intro k
      rw [ihf]
      simp only [markAt, noteFirst, Prod.ext_iff]
      by_cases hp : k.2 = t.pfx
      · by_cases hk : k.1 = key.1
        · by_cases hm : key.1 ∈ ks.map Prod.fst <;> simp [hp, hk, hm, earlier_idem]
        · have hmem : k.1 ∈ (key :: ks).map Prod.fst ↔ k.1 ∈ ks.map Prod.fst := by
            rw [List.map_cons, List.mem_cons, or_iff_right hk]
          have hno : ¬(k.1 = key.1 ∧ k.2 = t.pfx) := fun h => hk h.1
          simp only [if_neg hno, hmem]
      · simp [hp]

/-- A row after the transitions matched to it in `runs`. -/
def markAll (runs : List LinkedRun) (row : ObserverComparisonRow) : ObserverComparisonRow :=
  (matched runs row.collector row.pfx).foldl markRow row

/-- `first_change` after `runs`. -/
def firstAfter (f : FirstChange) (runs : List LinkedRun) : FirstChange :=
  fun k => (matched runs k.1 k.2).foldl earlier (f k)

theorem mem_collectorKeys {streams : List StreamRow} {c : String} :
    c ∈ (collectorKeys streams).map Prod.fst ↔ streams.any (·.collector == c) = true := by
  simp only [collectorKeys, List.mem_map, mem_sortBy, List.mem_dedup, List.any_eq_true, beq_iff_eq]
  constructor
  · rintro ⟨k, ⟨s, hs, rfl⟩, rfl⟩
    exact ⟨s, hs, rfl⟩
  · rintro ⟨s, hs, rfl⟩
    exact ⟨_, ⟨s, hs, rfl⟩, rfl⟩

/-- The transitions of one run, one after the other. -/
theorem foldl_transitions (streams : List StreamRow) (ts : List TransitionRow)
    (st : CompareState) :
    (ts.foldl (fun st t => (collectorKeys streams).foldl (markAt t) st) st).rows =
        st.rows.map (fun row => (if streams.any (·.collector == row.collector) then
          ts.filter (·.pfx == row.pfx) else []).foldl markRow row) ∧
      ∀ k, (ts.foldl (fun st t => (collectorKeys streams).foldl (markAt t) st) st).firstChange k =
        (if streams.any (·.collector == k.1) then ts.filter (·.pfx == k.2) else []).foldl earlier
          (st.firstChange k) := by
  induction ts generalizing st with
  | nil => simp
  | cons t ts ih =>
    obtain ⟨hr, hf⟩ := foldl_markAt t (collectorKeys streams) st
    obtain ⟨ihr, ihf⟩ := ih ((collectorKeys streams).foldl (markAt t) st)
    rw [List.foldl_cons]
    constructor
    · rw [ihr, hr, List.map_map]
      refine List.map_congr_left fun row _ => ?_
      simp only [Function.comp, mem_collectorKeys, List.filter_cons]
      by_cases hc : streams.any (·.collector == row.collector) = true
      · by_cases hp : row.pfx = t.pfx
        · simp [hc, hp]
        · simp [hc, hp, Ne.symm hp]
      · simp [hc]
    · intro k
      rw [ihf, hf]
      simp only [mem_collectorKeys, List.filter_cons]
      by_cases hc : streams.any (·.collector == k.1) = true
      · by_cases hp : k.2 = t.pfx
        · simp [hc, hp]
        · simp [hc, hp, Ne.symm hp]
      · simp [hc]

theorem processRun_eq (st : CompareState) (run : LinkedRun) :
    (processRun st run).firstChange = firstAfter st.firstChange [run] ∧
      (processRun st run).rows = (st.rows ++ run.streams.map (rowOf run.family)).map fun row =>
        setFirst (firstAfter st.firstChange [run]) (markAll [run] row) := by
  obtain ⟨hr, hf⟩ := foldl_transitions run.streams run.transitions
    { st with rows := st.rows ++ run.streams.map (rowOf run.family) }
  have hfc : (processRun st run).firstChange = firstAfter st.firstChange [run] := by
    funext k
    simpa [processRun, firstAfter, matched] using hf k
  refine ⟨hfc, ?_⟩
  have hrows : (processRun st run).rows = ((run.transitions.foldl
      (fun st t => (collectorKeys run.streams).foldl (markAt t) st)
      { st with rows := st.rows ++ run.streams.map (rowOf run.family) }).rows).map
        (setFirst (processRun st run).firstChange) := rfl
  rw [hrows, hfc, hr, List.map_map]
  refine List.map_congr_left fun row _ => ?_
  simp [markAll, matched]

theorem firstAfter_cons (f : FirstChange) (run : LinkedRun) (runs : List LinkedRun) :
    firstAfter (firstAfter f [run]) runs = firstAfter f (run :: runs) := by
  funext k
  simp only [firstAfter]
  rw [matched_cons run runs, List.foldl_append]

theorem markAll_cons (run : LinkedRun) (runs : List LinkedRun) (row : ObserverComparisonRow) :
    markAll runs (markAll [run] row) = markAll (run :: runs) row := by
  obtain ⟨hp, hc⟩ := marks_key row (matched [run] row.collector row.pfx)
  simp only [markAll, hp, hc]
  rw [matched_cons run runs, List.foldl_append]

theorem markAll_setFirst (runs : List LinkedRun) (f : FirstChange) (row : ObserverComparisonRow) :
    markAll runs (setFirst f row) = setFirst f (markAll runs row) := by
  rw [markAll, setFirst_collector, setFirst_pfx, marks_setFirst, markAll]

/-- The rows of `runs`: each stream's row, marked by what its run and the later ones match to
it, with the first change `f`. -/
def rowsFrom (f : FirstChange) : List LinkedRun → List ObserverComparisonRow
  | [] => []
  | run :: runs =>
    (run.streams.map fun s => setFirst f (markAll (run :: runs) (rowOf run.family s)))
      ++ rowsFrom f runs

theorem foldl_processRun (runs : List LinkedRun) (st : CompareState)
    (h : ∀ row ∈ st.rows, setFirst st.firstChange row = row) :
    (runs.foldl processRun st).rows =
      (st.rows.map fun row => setFirst (firstAfter st.firstChange runs) (markAll runs row)) ++
        rowsFrom (firstAfter st.firstChange runs) runs := by
  induction runs generalizing st with
  | nil =>
    have hnil : firstAfter st.firstChange [] = st.firstChange := by
      funext k
      rfl
    simp only [List.foldl_nil, rowsFrom, List.append_nil, hnil]
    conv_lhs => rw [← List.map_id st.rows]
    exact List.map_congr_left fun row hrow => (h row hrow).symm
  | cons run runs ih =>
    obtain ⟨hf, hr⟩ := processRun_eq st run
    have hgrow : ∀ k, (firstAfter st.firstChange [run] k).isSome = true →
        (firstAfter st.firstChange (run :: runs) k).isSome = true := by
      intro k hk
      rw [← firstAfter_cons]
      exact (earlier_isSome _ _).2 (Or.inl hk)
    have hfix : ∀ row ∈ (processRun st run).rows,
        setFirst (processRun st run).firstChange row = row := by
      intro row hrow
      rw [hr] at hrow
      obtain ⟨row₀, -, rfl⟩ := List.mem_map.1 hrow
      rw [hf]
      exact setFirst_setFirst _ _ _ fun _ hk => hk
    rw [List.foldl_cons, ih _ hfix, hf, hr, firstAfter_cons, List.map_map, List.map_append,
      rowsFrom, List.append_assoc]
    have hone : ∀ row, setFirst (firstAfter st.firstChange (run :: runs))
        (markAll runs (setFirst (firstAfter st.firstChange [run]) (markAll [run] row))) =
        setFirst (firstAfter st.firstChange (run :: runs)) (markAll (run :: runs) row) := by
      intro row
      rw [markAll_setFirst, setFirst_setFirst _ _ _ hgrow, markAll_cons]
    simp only [Function.comp_def, hone, List.map_map]

/-- **The rows, in closed form.** -/
theorem comparisonRows_eq (runs : List LinkedRun) :
    comparisonRows runs = rowsFrom (firstAfter (fun _ => none) runs) runs := by
  rw [comparisonRows, foldl_processRun runs _ (by simp)]
  simp

end Inim
