import Inim.Workbench.FindingText
import Inim.Workbench.Splits
/-!
# Whether a finding speaks of its own transitions (`catalog/workbench.rs:1742-2003`, `:2189-2302`)

A record of a stream has its paths twice: its own, and those of the `FindingStream` in it. `project`
recomputes "the path evidence from the selected ordered transitions only", but puts the transitions,
the times and the flag into the stream and leaves its three paths as they were. The signatures come
from the one copy, the audit record and the prepending counts of the sentence from the other.

`findingsCoherent_iff` says when the two copies, the signatures, the audit record and the sentence
tell one story: exactly where the evidence of a stream has the paths of the transitions listed with
it, and for a stream that is split, of both parts.
-/

namespace Inim

open Std Inim.Lib

variable {src : FindingSources} {e : ObserverEpisode}

/-! ## What is to agree -/

/-- The path before the first transition. -/
def firstBefore (ts : List PathTransition) : List UInt32 := (ts.head?.map (·.beforePath)).getD []

/-- The paths of a stream are those of the transitions listed with it. -/
structure FindingStream.OwnPaths (s : FindingStream) : Prop where
  baseline : s.baselinePath = firstBefore s.transitions
  changed : s.changedPath = firstLater s.transitions
  final : s.finalPath = lastObserved s.transitions

/-- The signatures summarize the paths of the streams. -/
structure RoutingFinding.SignsStreams (f : RoutingFinding) : Prop where
  baseline : f.baselinePathSignature =
    mostFrequent ((f.streams.map (·.baselinePath)).filter (· ≠ []))
  changed : f.changedPathSignature = mostFrequent (f.streams.filterMap (·.changedPath))
  final : f.finalPathSignature = mostFrequent (f.streams.filterMap (·.finalPath))

/-- The sentence with the paths of the audit record. -/
def statementOfAudit (f : RoutingFinding) : String :=
  let baseline := (auditEntry f).baselineAsPath
  let changed := (auditEntry f).firstChangedAsPath
  statementWith f (pathClause " from: " (collapsePath baseline))
    (pathClause " to: " (collapsePath changed))
    (prependClause f.targetOriginAsns (baseline.count ·) (changed.count ·))

structure RoutingFinding.Coherent (f : RoutingFinding) : Prop where
  own : ∀ s ∈ f.streams, s.OwnPaths
  signs : f.SignsStreams
  oneStory : findingStatement f = statementOfAudit f

/-! ## The condition -/

namespace FindingSources
variable (src) (e)

/-- The evidence of `s` has the paths of `ts`. -/
structure PathsOf (s : EpisodeStream) (ts : List PathTransition) : Prop where
  baseline : ((src.evidenceOf e s).map (·.baselinePath)).getD [] = firstBefore ts
  changed : (src.evidenceOf e s).bind (·.changedPath) = firstLater ts
  final : (src.evidenceOf e s).bind (·.finalPath) = lastObserved ts

/-- The streams like `s` are split at their withdrawals. -/
def IsSplit (s : EpisodeStream) : Prop :=
  ∃ s' ∈ e.streams, src.signature e s' = src.signature e s ∧
    ∃ i, withdrawalIn (src.transitionsOf e s') = some i ∧ src.AlikeBefore e s' i

/-- What the evidence of a stream has to be, so that its findings speak of their own transitions.
The last clause is about a withdrawal that has no path before it. -/
structure TellsOwn (s : EpisodeStream) : Prop where
  whole : ¬ src.IsSplit e s → src.PathsOf e s (src.transitionsOf e s)
  parts : src.IsSplit e s → ∀ i, withdrawalIn (src.transitionsOf e s) = some i →
    src.PathsOf e s ((src.transitionsOf e s).take i) ∧
    src.PathsOf e s ((src.transitionsOf e s).drop i) ∧
    (firstBefore ((src.transitionsOf e s).drop i) = [] →
      pathBefore ((src.transitionsOf e s).drop i) = none)

end FindingSources

/-! ## The most frequent of one path -/

theorem mostFrequent_mem {paths : List (List UInt32)} (hne : paths ≠ []) :
    ∃ p ∈ paths, mostFrequent paths = collapsePath p := by
  unfold mostFrequent
  cases hbest : maxBy (compareLex (compareOn fun x => x.2) (compareOn fun x => x.1.length))
      (sortBy (compareOn Prod.fst) (tally paths)) with
  | none =>
    exfalso
    obtain ⟨p, hp⟩ := List.exists_mem_of_ne_nil _ hne
    obtain ⟨n, hn⟩ : ∃ n, (p, n) ∈ tally paths := ⟨_, mem_tally.2 ⟨hp, rfl⟩⟩
    have hmem : (p, n) ∈ sortBy (compareOn Prod.fst) (tally paths) := mem_sortBy.2 hn
    cases hl : sortBy (compareOn Prod.fst) (tally paths) with
    | nil =>
      rw [hl] at hmem
      cases hmem
    | cons a l =>
      rw [hl] at hbest
      cases hbest
  | some best =>
    obtain ⟨hp, -⟩ := mem_tally.1 (mem_sortBy.1 (maxBy_mem hbest))
    refine ⟨best.1, hp, ?_⟩
    simp only [hbest]
    rfl

theorem mostFrequent_of_const {paths : List (List UInt32)} {p : List UInt32} (hne : paths ≠ [])
    (h : ∀ q ∈ paths, q = p) : mostFrequent paths = collapsePath p := by
  obtain ⟨q, hq, hsig⟩ := mostFrequent_mem hne
  rw [hsig, h q hq]

theorem asnRuns_cons (asn : UInt32) (path : List UInt32) :
    ∃ n runs, asnRuns (asn :: path) = (asn, n) :: runs := by
  simp only [asnRuns]
  split
  · split
    · exact ⟨_, _, rfl⟩
    · exact ⟨_, _, rfl⟩
  · exact ⟨_, _, rfl⟩

/-- A path is shown from the letters "AS" on. -/
theorem collapsePath_eq_append {p : List UInt32} (hne : p ≠ []) :
    ∃ rest, collapsePath p = "AS" ++ rest := by
  obtain ⟨asn, path, rfl⟩ := List.exists_cons_of_ne_nil hne
  obtain ⟨n, runs, hruns⟩ := asnRuns_cons asn path
  rw [collapsePath, if_neg (by simp), hruns, List.map_cons]
  by_cases hn : 1 < n
  · simp only [hn, if_true, String.append_assoc, String.intercalate_cons_append]
    exact ⟨_, rfl⟩
  · simp only [hn, if_false, String.intercalate_cons_append]
    exact ⟨_, rfl⟩

theorem collapsePath_ne_dash {p : List UInt32} (hne : p ≠ []) : collapsePath p ≠ "—" := by
  obtain ⟨rest, hshow⟩ := collapsePath_eq_append hne
  intro h
  have hchars := congrArg (fun s : String => s.toList.head?) (hshow.symm.trans h)
  simp at hchars

theorem mostFrequent_ne_dash {paths : List (List UInt32)} (hne : paths ≠ [])
    (h : ∀ p ∈ paths, p ≠ []) : mostFrequent paths ≠ "—" := by
  obtain ⟨p, hp, hsig⟩ := mostFrequent_mem hne
  rw [hsig]
  exact collapsePath_ne_dash (h p hp)

/-! ## A finding whose streams have the same paths -/

section Story
variable {f : RoutingFinding} {base : List UInt32} {changed : Option (List UInt32)}

theorem mostFrequent_baseline (h : ∀ s ∈ f.streams, s.baselinePath = base) :
    mostFrequent ((f.streams.map (·.baselinePath)).filter (· ≠ [])) =
      collapsePath (auditEntry f).baselineAsPath := by
  show _ = collapsePath ((f.streams.find? _).map _ |>.getD [])
  cases hs : f.streams with
  | nil => rfl
  | cons s rest =>
    rw [hs] at h
    by_cases hb : base = []
    · have hall : ∀ s' ∈ s :: rest, s'.baselinePath = [] := fun s' hs' => (h s' hs').trans hb
      rw [List.find?_eq_none.2 fun s' hs' => by simp [hall s' hs'], List.filter_eq_nil_iff.2]
      · rfl
      · simpa using hall
    · have hs0 := h s List.mem_cons_self
      rw [List.find?_cons_of_pos (by simpa [hs0] using hb)]
      refine mostFrequent_of_const ?_ ?_
      · simp [hs0, hb]
      · intro q hq
        obtain ⟨s', hs', rfl⟩ := List.mem_map.1 (List.mem_filter.1 hq).1
        exact (h s' hs').trans hs0.symm

theorem mostFrequent_changed (h : ∀ s ∈ f.streams, s.changedPath = changed) :
    mostFrequent (f.streams.filterMap (·.changedPath)) =
      collapsePath (auditEntry f).firstChangedAsPath := by
  show _ = collapsePath ((f.streams.findSome? _).getD [])
  cases hs : f.streams with
  | nil => rfl
  | cons s rest =>
    rw [hs] at h
    cases changed with
    | none =>
      rw [List.findSome?_eq_none_iff.2 h, List.filterMap_eq_nil_iff.2 h]
      rfl
    | some p =>
      rw [List.findSome?_cons, h s List.mem_cons_self]
      refine mostFrequent_of_const ?_ ?_
      · simp [h s List.mem_cons_self]
      · intro q hq
        obtain ⟨s', hs', hq⟩ := List.mem_filterMap.1 hq
        exact Option.some.inj (hq.symm.trans (h s' hs'))

theorem maxCount_const {l : List FindingStream} {g : FindingStream → Nat} {n : Nat} (hne : l ≠ [])
    (h : ∀ s ∈ l, g s = n) : maxCount (l.map g) = n := by
  have hfold : ∀ l : List FindingStream, (∀ s ∈ l, g s = n) → ∀ m ≤ n,
      (l.map g).foldl max m = if l = [] then m else n := by
    intro l
    induction l with
    | nil => exact fun _ _ _ => rfl
    | cons s l ih =>
      intro h m hm
      rw [List.map_cons, List.foldl_cons, h s List.mem_cons_self, Nat.max_eq_right hm,
        ih (fun s hs => h s (List.mem_cons_of_mem _ hs)) n le_rfl]
      simp
  rw [maxCount, hfold l h 0 (Nat.zero_le n), if_neg hne]

theorem streamsBefore_eq (h : ∀ s ∈ f.streams, s.baselinePath = base) (o : UInt32) :
    streamsBefore f o = (auditEntry f).baselineAsPath.count o := by
  show maxCount _ = ((f.streams.find? _).map _ |>.getD []).count o
  by_cases hs : f.streams = []
  · rw [hs]
    rfl
  · rw [maxCount_const hs fun s hs => by rw [h s hs]]
    cases hfind : f.streams.find? (!·.baselinePath.isEmpty) with
    | some s =>
      rw [Option.map_some, Option.getD_some, h s (List.mem_of_find?_eq_some hfind)]
    | none =>
      obtain ⟨s, hmem⟩ := List.exists_mem_of_ne_nil _ hs
      have hempty := List.find?_eq_none.1 hfind s hmem
      rw [h s hmem] at hempty
      obtain rfl : base = [] := by simpa using hempty
      rfl

theorem streamsAfter_eq (h : ∀ s ∈ f.streams, s.changedPath = changed) (o : UInt32) :
    streamsAfter f o = (auditEntry f).firstChangedAsPath.count o := by
  show maxCount _ = ((f.streams.findSome? _).getD []).count o
  by_cases hs : f.streams = []
  · rw [hs]
    rfl
  · rw [maxCount_const hs fun s hs => by rw [h s hs]]
    cases changed with
    | none =>
      rw [List.findSome?_eq_none_iff.2 h]
      rfl
    | some p =>
      obtain ⟨s, rest, hcons⟩ := List.exists_cons_of_ne_nil hs
      rw [hcons] at h ⊢
      rw [List.findSome?_cons, h s List.mem_cons_self]
      rfl

/-- With signatures of the streams the sentence has the paths of the audit record. -/
theorem findingStatement_eq (hsigns : f.SignsStreams) (hbase : ∀ s ∈ f.streams, s.baselinePath = base)
    (hchanged : ∀ s ∈ f.streams, s.changedPath = changed) :
    findingStatement f = statementOfAudit f := by
  rw [findingStatement, hsigns.baseline, hsigns.changed, mostFrequent_baseline hbase,
    mostFrequent_changed hchanged, funext (streamsBefore_eq hbase), funext (streamsAfter_eq hchanged)]
  rfl

end Story

/-! ## The two copies -/

theorem pathBefore_eq_some {ts : List PathTransition} {p : List UInt32} (h : pathBefore ts = some p) :
    p ≠ [] := by
  obtain ⟨t, ht, rfl⟩ := Option.map_eq_some_iff.1 h
  simpa using List.find?_some ht

theorem pathBefore_of_firstBefore {ts : List PathTransition} (h : firstBefore ts ≠ []) :
    pathBefore ts = some (firstBefore ts) := by
  cases ts with
  | nil => exact absurd rfl h
  | cons t ts =>
    have ht : t.beforePath ≠ [] := h
    rw [pathBefore, List.find?_cons_of_pos (by simpa using ht)]
    rfl

/-- Between paths, the first transition has a path before it. -/
theorem pathBefore_eq_none_of_visible {ts : List PathTransition} (h : ∀ t ∈ ts, t.beforePath ≠ [])
    (hempty : firstBefore ts = []) : pathBefore ts = none := by
  cases ts with
  | nil => rfl
  | cons t ts => exact absurd hempty (h t List.mem_cons_self)

/-- The copies of the three paths in a record agree. -/
def StreamRecord.SameCopies (rec : StreamRecord) : Prop :=
  rec.baseline = rec.stream.baselinePath ∧ rec.changed = rec.stream.changedPath ∧
    rec.finalPath = rec.stream.finalPath

theorem streamRecord_sameCopies (s : EpisodeStream) : (src.streamRecord e s).SameCopies :=
  ⟨rfl, rfl, rfl⟩

theorem ownPaths_streamRecord {s : EpisodeStream} : (src.streamRecord e s).stream.OwnPaths ↔
    src.PathsOf e s (src.transitionsOf e s) :=
  ⟨fun ⟨hb, hc, hf⟩ => ⟨hb, hc, hf⟩, fun ⟨hb, hc, hf⟩ => ⟨hb, hc, hf⟩⟩

theorem ownPaths_project {s : EpisodeStream} {ts : List PathTransition} :
    (project (src.streamRecord e s) ts).stream.OwnPaths ↔ src.PathsOf e s ts :=
  ⟨fun ⟨hb, hc, hf⟩ => ⟨hb, hc, hf⟩, fun ⟨hb, hc, hf⟩ => ⟨hb, hc, hf⟩⟩

/-- The projection falls back on what is missing, which its own paths leave no room for. -/
theorem project_sameCopies {s : EpisodeStream} {ts : List PathTransition} (h : src.PathsOf e s ts)
    (hempty : firstBefore ts = [] → pathBefore ts = none) :
    (project (src.streamRecord e s) ts).SameCopies := by
  have hself {α : Type} (o : Option α) : (o <|> o) = o := by cases o <;> rfl
  refine ⟨?_, ?_, ?_⟩
  · show (pathBefore ts).getD _ = _
    by_cases hb : firstBefore ts = []
    · rw [hempty hb]
      rfl
    · rw [pathBefore_of_firstBefore hb]
      exact h.baseline.symm
  · show (firstLater ts <|> (src.evidenceOf e s).bind (·.changedPath)) = _
    rw [← h.changed, hself]
    rfl
  · show (lastObserved ts <|> (src.evidenceOf e s).bind (·.finalPath)) = _
    rw [← h.final, hself]
    rfl

theorem emit_signsStreams {c : EmitCall} (h : ∀ rec ∈ c.records, rec.SameCopies) :
    (src.emit e c).SignsStreams := by
  refine ⟨?_, ?_, ?_⟩
  · show mostFrequent ((c.records.map _).filter _) = mostFrequent (((c.records.map _).map _).filter _)
    rw [List.map_map, List.map_congr_left fun rec hrec => (h rec hrec).1]
    rfl
  · show mostFrequent (c.records.filterMap _) = mostFrequent ((c.records.map _).filterMap _)
    rw [List.filterMap_map, List.filterMap_congr fun rec hrec => (h rec hrec).2.1]
    rfl
  · show mostFrequent (c.records.filterMap _) = mostFrequent ((c.records.map _).filterMap _)
    rw [List.filterMap_map, List.filterMap_congr fun rec hrec => (h rec hrec).2.2]
    rfl

/-! ## The findings of a partition -/

theorem preShape_isSome_iff {s : EpisodeStream} :
    (preShape (src.partitionOf e s)).isSome = true ↔ src.IsSplit e s := by
  constructor
  · intro h
    obtain ⟨shape, hshape⟩ := Option.isSome_iff_exists.1 h
    obtain ⟨s', hs', hsig, i, hi, halike, -⟩ := alikeBefore_of_preShape hshape
    exact ⟨s', hs', hsig, i, hi, halike⟩
  · rintro ⟨s', hs', hsig, i, hi, halike⟩
    have hsame : src.partitionOf e s = src.partitionOf e s' := by
      rw [FindingSources.partitionOf, FindingSources.partitionOf, hsig]
    rw [hsame, preShape_of_alikeBefore hs' hi halike]
    rfl

/-- A finding of records like `s`, whole or projected, speaks of its own transitions when its records
do. -/
theorem emit_coherent {c : EmitCall} {s : EpisodeStream}
    (hlike : ∀ rec ∈ c.records, (rec.stream.baselinePath, rec.stream.changedPath) = src.signature e s)
    (hown : ∀ rec ∈ c.records, rec.stream.OwnPaths) (hsame : ∀ rec ∈ c.records, rec.SameCopies) :
    (src.emit e c).Coherent := by
  have hstream {P : FindingStream → Prop} (h : ∀ rec ∈ c.records, P rec.stream) :
      ∀ s ∈ (src.emit e c).streams, P s := by
    simpa using h
  refine ⟨hstream hown, emit_signsStreams hsame, ?_⟩
  exact findingStatement_eq (emit_signsStreams hsame)
    (hstream fun rec hrec => congrArg Prod.fst (hlike rec hrec))
    (hstream fun rec hrec => congrArg Prod.snd (hlike rec hrec))

theorem isSplit_congr {s s' : EpisodeStream} (hsig : src.signature e s' = src.signature e s) :
    src.IsSplit e s' ↔ src.IsSplit e s := by
  simp only [FindingSources.IsSplit, hsig]

theorem beforeCut_eq {s : EpisodeStream} {i : Nat} (hi : withdrawalIn (src.transitionsOf e s) = some i) :
    (src.streamRecord e s).beforeCut =
      project (src.streamRecord e s) ((src.transitionsOf e s).take i) := by
  have hat : (src.streamRecord e s).withdrawalAt = some i := hi
  rw [StreamRecord.beforeCut, hat]
  rfl

theorem fromCut_eq {s : EpisodeStream} {i : Nat} (hi : withdrawalIn (src.transitionsOf e s) = some i) :
    (src.streamRecord e s).fromCut =
      project (src.streamRecord e s) ((src.transitionsOf e s).drop i) := by
  have hat : (src.streamRecord e s).withdrawalAt = some i := hi
  rw [StreamRecord.fromCut, hat]
  rfl

/-- A signature with a path shows a stream without one. -/
theorem baseline_ne_nil_of_pathBefore {c : EmitCall} {s : EpisodeStream} {ts : List PathTransition}
    {p : List UInt32} (hmem : project (src.streamRecord e s) ts ∈ c.records)
    (hp : pathBefore ts = some p) (hsigns : (src.emit e c).SignsStreams) :
    ∃ s ∈ (src.emit e c).streams, s.baselinePath ≠ [] := by
  by_contra! hnone
  have hfilter : ((src.emit e c).streams.map (·.baselinePath)).filter (· ≠ []) = [] := by
    rw [List.filter_eq_nil_iff]
    simpa using hnone
  have hsig := hsigns.baseline
  rw [hfilter] at hsig
  refine mostFrequent_ne_dash ?_ ?_ hsig
  · refine List.ne_nil_of_mem (List.mem_filter.2 ⟨List.mem_map_of_mem hmem, ?_⟩)
    have hbase : (project (src.streamRecord e s) ts).baseline = p := by
      show (pathBefore ts).getD _ = p
      rw [hp, Option.getD_some]
    simpa [hbase] using pathBefore_eq_some hp
  · exact fun q hq => by simpa using (List.mem_filter.1 hq).2

section Part
variable {s₀ : EpisodeStream} {c c' : EmitCall}

/-- The finding of a partition that is not split. -/
theorem whole_coherent_iff (hpre : preShape (src.partitionOf e s₀) = none)
    (hc : c.records = src.partitionOf e s₀) : (src.emit e c).Coherent ↔
      ∀ s ∈ e.streams, src.signature e s = src.signature e s₀ → src.TellsOwn e s := by
  have hwhole : ¬ src.IsSplit e s₀ := by
    rw [← preShape_isSome_iff, hpre]
    exact Bool.false_ne_true
  constructor
  · intro hcoh s hs hsig
    refine ⟨fun _ => ownPaths_streamRecord.1 (hcoh.own _ ?_), fun hsplit => ?_⟩
    · rw [emit_streams, hc]
      exact List.mem_map_of_mem (mem_partitionOf.2 ⟨s, hs, hsig, rfl⟩)
    · exact absurd ((isSplit_congr hsig).1 hsplit) hwhole
  · intro hall
    have hrec {P : StreamRecord → Prop} (h : ∀ s ∈ e.streams, src.signature e s = src.signature e s₀ →
        P (src.streamRecord e s)) : ∀ rec ∈ c.records, P rec := by
      intro rec hrec
      obtain ⟨s, hs, hsig, rfl⟩ := mem_partitionOf.1 (hc ▸ hrec)
      exact h s hs hsig
    refine emit_coherent (s := s₀) (hrec fun s _ hsig => hsig) (hrec fun s hs hsig => ?_)
      (hrec fun s _ _ => streamRecord_sameCopies s)
    exact ownPaths_streamRecord.2 ((hall s hs hsig).whole (mt (isSplit_congr hsig).1 hwhole))

/-- The two findings of a partition that is split. -/
theorem split_coherent_iff {shape : List TransitionShape}
    (hpre : preShape (src.partitionOf e s₀) = some shape)
    (hw : ∀ rec ∈ src.partitionOf e s₀, rec.withdrawalAt ≠ none)
    (hc : c.records = (src.partitionOf e s₀).map (·.beforeCut))
    (hc' : c'.records = (src.partitionOf e s₀).map (·.fromCut)) :
    (src.emit e c).Coherent ∧ (src.emit e c').Coherent ↔
      ∀ s ∈ e.streams, src.signature e s = src.signature e s₀ → src.TellsOwn e s := by
  have hsplit : src.IsSplit e s₀ := preShape_isSome_iff.1 (Option.isSome_of_mem hpre)
  constructor
  · rintro ⟨hbefore, hfrom⟩ s hs hsig
    have hrec := mem_partitionOf.2 ⟨s, hs, hsig, rfl⟩
    refine ⟨fun hwhole => absurd ((isSplit_congr hsig).2 hsplit) hwhole, fun _ i hi => ?_⟩
    have hmem : project (src.streamRecord e s) ((src.transitionsOf e s).take i) ∈ c.records := by
      rw [hc, ← beforeCut_eq hi]
      exact List.mem_map_of_mem hrec
    have hmem' : project (src.streamRecord e s) ((src.transitionsOf e s).drop i) ∈ c'.records := by
      rw [hc', ← fromCut_eq hi]
      exact List.mem_map_of_mem hrec
    have hown' := ownPaths_project.1 (hfrom.own _ (List.mem_map_of_mem hmem'))
    refine ⟨ownPaths_project.1 (hbefore.own _ (List.mem_map_of_mem hmem)), hown', fun hempty => ?_⟩
    -- a path before a later transition would be in the signature, and in no stream
    cases hp : pathBefore ((src.transitionsOf e s).drop i) with
    | none => rfl
    | some p =>
      exfalso
      obtain ⟨t, ht, hne⟩ := baseline_ne_nil_of_pathBefore hmem' hp hfrom.signs
      rw [emit_streams, hc', List.map_map] at ht
      obtain ⟨rec, hrec', rfl⟩ := List.mem_map.1 ht
      obtain ⟨s', -, hsig', rfl⟩ := mem_partitionOf.1 hrec'
      have hbase : (src.signature e s').1 = (src.signature e s).1 :=
        congrArg Prod.fst (hsig'.trans hsig.symm)
      exact hne ((hbase.trans hown'.baseline).trans hempty)
  · intro hall
    have hparts {g : StreamRecord → StreamRecord} {P : StreamRecord → Prop}
        (h : ∀ s ∈ e.streams, src.signature e s = src.signature e s₀ →
          ∀ i, withdrawalIn (src.transitionsOf e s) = some i → P (g (src.streamRecord e s))) :
        ∀ rec ∈ (src.partitionOf e s₀).map g, P rec := by
      intro rec' hrec'
      obtain ⟨rec, hrec, rfl⟩ := List.mem_map.1 hrec'
      obtain ⟨i, hi⟩ := Option.ne_none_iff_exists'.1 (hw rec hrec)
      obtain ⟨s, hs, hsig, rfl⟩ := mem_partitionOf.1 hrec
      exact h s hs hsig i hi
    have hown {s : EpisodeStream} {i : Nat} (hs : s ∈ e.streams)
        (hsig : src.signature e s = src.signature e s₀)
        (hi : withdrawalIn (src.transitionsOf e s) = some i) :=
      (hall s hs hsig).parts ((isSplit_congr hsig).2 hsplit) i hi
    constructor
    · refine emit_coherent (s := s₀) ?_ ?_ ?_ <;> rw [hc]
      · exact hparts fun s _ hsig _ _ => hsig
      · exact hparts fun s hs hsig i hi => beforeCut_eq hi ▸ ownPaths_project.2 (hown hs hsig hi).1
      · refine hparts fun s hs hsig i hi => beforeCut_eq hi ▸ project_sameCopies (hown hs hsig hi).1 ?_
        refine pathBefore_eq_none_of_visible fun t ht => ?_
        obtain ⟨-, hsame, hvisible⟩ := preShape_eq_some_iff.1 hpre
        have hshape := hsame _ (mem_shapesBefore.2 ⟨_, mem_partitionOf.2 ⟨s, hs, hsig, rfl⟩, i, hi, rfl⟩)
        exact (hvisible t.shape (hshape ▸ List.mem_map_of_mem ht)).1
    · refine emit_coherent (s := s₀) ?_ ?_ ?_ <;> rw [hc']
      · exact hparts fun s _ hsig _ _ => hsig
      · exact hparts fun s hs hsig i hi => fromCut_eq hi ▸ ownPaths_project.2 (hown hs hsig hi).2.1
      · exact hparts fun s hs hsig i hi =>
          fromCut_eq hi ▸ project_sameCopies (hown hs hsig hi).2.1 (hown hs hsig hi).2.2

theorem partFindings_coherent_iff {split : Bool} {pi : Nat} {found : List (Segment × RoutingFinding)}
    (h : src.partFindings e split (src.partitionOf e s₀) pi = some found) :
    (∀ x ∈ found, x.2.Coherent) ↔
      ∀ s ∈ e.streams, src.signature e s = src.signature e s₀ → src.TellsOwn e s := by
  rcases partFindings_cases h with ⟨hpre, c, hc, rfl⟩ | ⟨shape, hpre, hw, c, c', hc, hc', rfl⟩
  · rw [← whole_coherent_iff hpre hc]
    simp
  · rw [← split_coherent_iff hpre hw hc hc']
    simp

end Part

/-! ## All findings -/

theorem episodeFindings_coherent_iff (hchg : e.effectKind ≠ .noRouteStateChange)
    {found : List (Segment × RoutingFinding)} (h : src.episodeFindings e = some found) :
    (∀ x ∈ found, x.2.Coherent) ↔ ∀ s ∈ e.streams, src.TellsOwn e s := by
  obtain ⟨rows, hrows, rfl⟩ := episodeFindings_rows hchg h
  constructor
  · intro hcoh s hs
    obtain ⟨row, ⟨split, pi, hrow⟩, hsub⟩ := row_of_mem hrows (mem_partitions.2 ⟨s, hs, rfl⟩)
    exact (partFindings_coherent_iff hrow).1 (fun x hx => hcoh x (hsub x hx)) s hs rfl
  · intro hall x hx
    obtain ⟨part, hpart, row, ⟨split, pi, hrow⟩, hx⟩ := row_of_mem_flatten hrows hx
    obtain ⟨s₀, -, rfl⟩ := mem_partitions.1 hpart
    exact (partFindings_coherent_iff hrow).2 (fun s hs _ => hall s hs) x hx

/-- **Every finding speaks of its own transitions, with one story in its streams, its signatures, its
audit record and its sentence, exactly where the evidence of its streams does.** -/
theorem findingsCoherent_iff {episodes : List ObserverEpisode} {findings : List RoutingFinding}
    (h : buildFindings src episodes = some findings) : (∀ f ∈ findings, f.Coherent) ↔
      ∀ e ∈ episodes, e.effectKind ≠ .noRouteStateChange → ∀ s ∈ e.streams, src.TellsOwn e s := by
  constructor
  · intro hcoh e he hchg
    obtain ⟨found, hfound⟩ := Option.isSome_iff_exists.1
      (buildFindings_isSome.1 (Option.isSome_of_mem h) e he)
    refine (episodeFindings_coherent_iff hchg hfound).1 fun x hx => hcoh x.2 ?_
    exact (mem_buildFindings h).2 ⟨e, he, found, hfound, x.1, hx⟩
  · intro hall f hf
    obtain ⟨e, he, found, hfound, seg, hmem⟩ := (mem_buildFindings h).1 hf
    by_cases hchg : e.effectKind = .noRouteStateChange
    · rw [FindingSources.episodeFindings, if_pos hchg] at hfound
      obtain rfl := Option.some.inj hfound
      cases hmem
    · exact (episodeFindings_coherent_iff hchg hfound).2 (hall e he hchg) _ hmem

/-! ### A reduced prepending before the withdrawal -/

/-- The prefix was announced with less prepending, withdrawn, and came back with all of it. -/
def prependEvidence : StreamPathEvidence where
  transitions := [
    ⟨"2026-07-14T07:24:47Z", "PathReplacement", [64512, 40220, 225, 225, 225], [64512, 40220, 225]⟩,
    ⟨"2026-07-14T07:33:59Z", "Withdrawal", [64512, 40220, 225], []⟩,
    ⟨"2026-07-14T07:36:00Z", "Announcement", [], [64512, 40220, 225, 225, 225]⟩]
  baselinePath := [64512, 40220, 225, 225, 225]
  changedPath := some [64512, 40220, 225]
  finalPath := some [64512, 40220, 225, 225, 225]
  visibilityRestoredAt := some "2026-07-14T07:36:00Z"
  equivalentRouteRestoredAt := none
  reviewedPlaneRestoredAt := none
  exactBaselineRestoredAt := none

def prependSources : FindingSources :=
  { absentSources with
    paths := fun _ _ => some prependEvidence
    targetLabel := "UVA via transit"
    targetOriginAsns := [225] }

theorem prependFindings_coherent_iff : ∃ findings,
    buildFindings prependSources [absentEpisode] = some findings ∧
      ((∀ f ∈ findings, f.Coherent) ↔ ∀ e ∈ [absentEpisode], e.effectKind ≠ .noRouteStateChange →
        ∀ s ∈ e.streams, prependSources.TellsOwn e s) := by
  obtain ⟨findings, h⟩ := Option.isSome_iff_exists.1
    (by decide +kernel : (buildFindings prependSources [absentEpisode]).isSome = true)
  exact ⟨findings, h, findingsCoherent_iff h⟩

/-- **Bug**: the finding of the absence starts from one prepend, as its signature says, and its stream
and its audit record still have the three of the event's baseline. -/
theorem absence_keeps_old_baseline : ∃ findings,
    buildFindings prependSources [absentEpisode] = some findings ∧ ¬ ∀ f ∈ findings, f.Coherent := by
  have hall : ∀ e ∈ [absentEpisode], (prependSources.episodeFindings e).isSome = true := by
    decide +kernel
  obtain ⟨found, hfound⟩ := Option.isSome_iff_exists.1 (hall _ List.mem_cons_self)
  obtain ⟨findings, h⟩ := Option.isSome_iff_exists.1 (buildFindings_isSome.2 hall)
  refine ⟨findings, h, fun hcoh => ?_⟩
  have htells := (episodeFindings_coherent_iff (by decide) hfound).1
    (fun x hx => hcoh x.2 ((mem_buildFindings h).2 ⟨_, List.mem_cons_self, found, hfound, x.1, hx⟩))
    absentPrefix List.mem_cons_self
  have hparts := htells.parts (preShape_isSome_iff.1 (by decide +kernel)) 1 (by decide +kernel)
  exact absurd hparts.2.1.baseline (by decide +kernel)

end Inim
