import Inim.Workbench.Findings
/-!
# What the findings of an episode cover (`catalog/workbench.rs:1609-1741`, `:2004-2128`)

Every stream of a changed episode and every transition of it should be told by a finding, and by one
only. A partition is split where its streams with a withdrawal went through the same path changes
before it. What the split takes for granted is that there are such changes, and that the partition
has no other streams: `buildFindings` panics on a stream that was not withdrawn, and where nothing
came before the withdrawals it tells a path change of streams whose first transition is the
withdrawal.

`findingsCover_iff` is the exact condition, on the evidence alone.
-/

namespace Inim

open Std Inim.Lib

variable {src : FindingSources} {e : ObserverEpisode}

/-! ## What is to be told -/

/-- The transitions a finding tells, with their prefixes. -/
def RoutingFinding.told (f : RoutingFinding) : List (String × PathTransition) :=
  f.streams.flatMap fun s => s.transitions.map (s.pfx, ·)

/-- The transitions there are. -/
def FindingSources.evidenced (src : FindingSources) (e : ObserverEpisode) :
    List (String × PathTransition) :=
  e.streams.flatMap fun s => (src.transitionsOf e s).map (s.pfx, ·)

/-- Every stream in a finding, every transition in one, and no change before a withdrawal where
there is none. -/
structure CoversEpisode (src : FindingSources) (e : ObserverEpisode)
    (found : List (Segment × RoutingFinding)) : Prop where
  streams : ∀ s ∈ e.streams, ∃ x ∈ found, s.pfx ∈ x.2.streams.map (·.pfx)
  transitions : (found.flatMap (·.2.told)).Perm (src.evidenced e)
  visible : ∀ x ∈ found, x.1 = .beforeWithdrawal → ∀ s ∈ x.2.streams, s.transitions ≠ []

def FindingsCover (src : FindingSources) (episodes : List ObserverEpisode) : Prop :=
  ∃ findings, buildFindings src episodes = some findings ∧
    ∀ e ∈ episodes, e.effectKind ≠ .noRouteStateChange → ∃ found, src.episodeFindings e = some found ∧
      (∀ x ∈ found, x.2 ∈ findings) ∧ CoversEpisode src e found

/-! ## The condition -/

/-- The position of the first withdrawal. -/
def withdrawalIn (ts : List PathTransition) : Option Nat := ts.findIdx? (·.isWithdrawal)

namespace FindingSources
variable (src) (e)

/-- What the streams of a partition have in common. -/
def signature (s : EpisodeStream) : List UInt32 × Option (List UInt32) :=
  (((src.evidenceOf e s).map (·.baselinePath)).getD [], (src.evidenceOf e s).bind (·.changedPath))

/-- The first `i` transitions of `s` go from path to path, and the streams like it went through the
same before they were withdrawn. -/
def AlikeBefore (s : EpisodeStream) (i : Nat) : Prop :=
  (∀ t ∈ (src.transitionsOf e s).take i, t.beforePath ≠ [] ∧ t.afterPath ≠ []) ∧
  ∀ s' ∈ e.streams, src.signature e s' = src.signature e s →
    ∀ j, withdrawalIn (src.transitionsOf e s') = some j →
      ((src.transitionsOf e s').take j).map (·.shape) = ((src.transitionsOf e s).take i).map (·.shape)

/-- Where the withdrawn streams are alike before, there is something before, and no stream was not
withdrawn. -/
def SplitsWell : Prop :=
  ∀ s ∈ e.streams, ∀ i, withdrawalIn (src.transitionsOf e s) = some i → src.AlikeBefore e s i →
    i ≠ 0 ∧ ∀ s' ∈ e.streams, src.signature e s' = src.signature e s →
      withdrawalIn (src.transitionsOf e s') ≠ none

end FindingSources

/-! ## Partitions -/

/-- The records of the streams like `s`. -/
def FindingSources.partitionOf (src : FindingSources) (e : ObserverEpisode) (s : EpisodeStream) :
    List StreamRecord :=
  (e.streams.filter fun s' => src.signature e s' = src.signature e s).map (src.streamRecord e)

theorem mem_partitionOf {s : EpisodeStream} {rec : StreamRecord} : rec ∈ src.partitionOf e s ↔
    ∃ s' ∈ e.streams, src.signature e s' = src.signature e s ∧ src.streamRecord e s' = rec := by
  simp [FindingSources.partitionOf, and_assoc]

theorem mem_partitions {part : List StreamRecord} : part ∈ src.partitions e ↔
    ∃ s ∈ e.streams, part = src.partitionOf e s := by
  simp only [FindingSources.partitions, List.mem_map, mem_sortBy, FindingSources.records]
  constructor
  · rintro ⟨⟨key, part'⟩, hmem, rfl⟩
    obtain ⟨⟨r, hr, rfl⟩, rfl⟩ := (mem_groupOn _).1 hmem
    obtain ⟨s, hs, rfl⟩ := List.mem_map.1 hr
    refine ⟨s, hs, ?_⟩
    rw [List.filter_map]
    rfl
  · rintro ⟨s, hs, rfl⟩
    refine ⟨(src.signature e s, _), (mem_groupOn _).2 ⟨⟨_, List.mem_map_of_mem hs, rfl⟩, rfl⟩, ?_⟩
    rw [List.filter_map]
    rfl

theorem flatten_partitions_perm : (src.partitions e).flatten.Perm (src.records e) :=
  (((sortBy_perm _ _).map Prod.snd).flatten).trans (flatten_groupOn_perm _ _)

/-! ## The shape before the withdrawals -/

theorem mem_shapesBefore {part : List StreamRecord} {sh : List TransitionShape} :
    sh ∈ shapesBefore part ↔ ∃ rec ∈ part, ∃ i, rec.withdrawalAt = some i ∧
      (rec.stream.transitions.take i).map (·.shape) = sh := by
  simp [shapesBefore, List.mem_filterMap, Option.map_eq_some_iff]

theorem preShape_eq_some_iff {part : List StreamRecord} {shape : List TransitionShape} :
    preShape part = some shape ↔ shapesBefore part ≠ [] ∧ (∀ sh ∈ shapesBefore part, sh = shape) ∧
      ∀ s ∈ shape, s.2.1 ≠ [] ∧ s.2.2 ≠ [] := by
  unfold preShape
  cases hl : shapesBefore part with
  | nil => simp
  | cons first rest =>
    simp only [ne_eq, reduceCtorEq, not_false_eq_true, true_and, Option.ite_none_right_eq_some,
      Bool.and_eq_true, List.all_eq_true, beq_iff_eq, Bool.not_eq_true', List.isEmpty_eq_false_iff,
      Option.some.injEq]
    constructor
    · rintro ⟨⟨hpath, hsame⟩, rfl⟩
      exact ⟨hsame, hpath first List.mem_cons_self⟩
    · rintro ⟨hsame, hpath⟩
      obtain rfl := hsame first List.mem_cons_self
      exact ⟨⟨fun sh hsh => hsame sh hsh ▸ hpath, hsame⟩, rfl⟩

theorem splitRecords_isSome {cut : List PathTransition → Nat → List PathTransition}
    {part : List StreamRecord} :
    (splitRecords cut part).isSome = true ↔ ∀ rec ∈ part, rec.withdrawalAt ≠ none := by
  rw [splitRecords, mapM_isSome]
  simp

theorem splitRecords_eq {cut : List PathTransition → Nat → List PathTransition}
    {part recs : List StreamRecord} (h : splitRecords cut part = some recs) :
    recs = part.map fun rec =>
      project rec (cut rec.stream.transitions (rec.withdrawalAt.getD 0)) := by
  have hall := mapM_forall₂ h
  clear h
  induction hall with
  | nil => rfl
  | cons hrec _ ih =>
    obtain ⟨i, hi, rfl⟩ := Option.map_eq_some_iff.1 hrec
    simp [hi, ← ih]

/-! ## The findings of a partition -/

/-- The parts of a record before its withdrawal and from it on. -/
def StreamRecord.beforeCut (rec : StreamRecord) : StreamRecord :=
  project rec (rec.stream.transitions.take (rec.withdrawalAt.getD 0))

def StreamRecord.fromCut (rec : StreamRecord) : StreamRecord :=
  project rec (rec.stream.transitions.drop (rec.withdrawalAt.getD 0))

def StreamRecord.told (rec : StreamRecord) : List (String × PathTransition) :=
  rec.stream.transitions.map (rec.stream.pfx, ·)

@[simp] theorem emit_streams (c : EmitCall) :
    (src.emit e c).streams = c.records.map (·.stream) := rfl

theorem emit_told (c : EmitCall) : (src.emit e c).told = c.records.flatMap (·.told) := by
  simp only [RoutingFinding.told, emit_streams, List.flatMap_map]
  rfl

/-- What is told before the cut and from it on is what there was. -/
theorem told_beforeCut_append (rec : StreamRecord) :
    rec.beforeCut.told ++ rec.fromCut.told = rec.told := by
  show List.map _ _ ++ List.map _ _ = List.map _ _
  exact (List.map_append ..).symm.trans (congrArg _ (List.take_append_drop ..))

section Part
variable {split : Bool} {part : List StreamRecord} {pi : Nat} {found : List (Segment × RoutingFinding)}

theorem partFindings_isSome : (src.partFindings e split part pi).isSome = true ↔
    ∀ shape, preShape part = some shape → ∀ rec ∈ part, rec.withdrawalAt ≠ none := by
  unfold FindingSources.partFindings
  cases hpre : preShape part with
  | none => simp
  | some shape =>
    simp only [Option.some.injEq, forall_eq', FindingSources.splitFindings]
    constructor
    · intro h
      obtain ⟨found, hfound⟩ := Option.isSome_iff_exists.1 h
      obtain ⟨recs, hrecs, -⟩ := Option.bind_eq_some_iff.1 hfound
      exact splitRecords_isSome.1 (Option.isSome_of_mem hrecs)
    · intro h
      obtain ⟨pre, hpre⟩ := Option.isSome_iff_exists.1
        ((@splitRecords_isSome (fun ts i => ts.take i) part).2 h)
      obtain ⟨abs, habs⟩ := Option.isSome_iff_exists.1
        ((@splitRecords_isSome (fun ts i => ts.drop i) part).2 h)
      simp [hpre, habs]

/-- A partition is one finding, or two that meet at the withdrawals. -/
theorem partFindings_cases (h : src.partFindings e split part pi = some found) :
    (preShape part = none ∧ ∃ c, c.records = part ∧ found = [(.whole, src.emit e c)]) ∨
    ∃ shape, preShape part = some shape ∧ (∀ rec ∈ part, rec.withdrawalAt ≠ none) ∧
      ∃ c c', c.records = part.map (·.beforeCut) ∧ c'.records = part.map (·.fromCut) ∧
        found = [(.beforeWithdrawal, src.emit e c), (.fromWithdrawal, src.emit e c')] := by
  have hsome := partFindings_isSome.1 (Option.isSome_of_mem h)
  unfold FindingSources.partFindings at h
  cases hpre : preShape part with
  | none =>
    rw [hpre] at h
    exact .inl ⟨rfl, _, rfl, (Option.some.inj h).symm⟩
  | some shape =>
    rw [hpre] at h
    obtain ⟨pre, hcut, h⟩ := Option.bind_eq_some_iff.1 h
    obtain ⟨abs, hcut', h⟩ := Option.bind_eq_some_iff.1 h
    exact .inr ⟨shape, rfl, hsome shape hpre, _, _, splitRecords_eq hcut, splitRecords_eq hcut',
      (Option.some.inj h).symm⟩

theorem partFindings_told (h : src.partFindings e split part pi = some found) :
    (found.flatMap (·.2.told)).Perm (part.flatMap (·.told)) := by
  rcases partFindings_cases h with ⟨-, c, rfl, rfl⟩ | ⟨shape, -, -, c, c', hc, hc', rfl⟩
  · simp [emit_told]
  · simp only [List.flatMap_cons, List.flatMap_nil, List.append_nil, emit_told, hc, hc',
      List.flatMap_map]
    refine (List.flatMap_append_perm part _ _).trans (.of_eq (List.flatMap_congr fun rec _ => ?_))
    exact told_beforeCut_append rec

theorem partFindings_streams (h : src.partFindings e split part pi = some found) :
    ∀ rec ∈ part, ∃ x ∈ found, rec.stream.pfx ∈ x.2.streams.map (·.pfx) := by
  intro rec hrec
  rcases partFindings_cases h with ⟨-, c, rfl, rfl⟩ | ⟨shape, -, -, c, c', hc, -, rfl⟩
  · exact ⟨_, List.mem_singleton.2 rfl,
      List.mem_map.2 ⟨_, List.mem_map_of_mem hrec, rfl⟩⟩
  · refine ⟨_, List.mem_cons_self, List.mem_map.2 ⟨rec.beforeCut.stream, ?_, rfl⟩⟩
    rw [emit_streams, hc, List.map_map]
    exact List.mem_map_of_mem hrec

/-- The finding before the withdrawals tells something exactly when the common shape is not empty. -/
theorem partFindings_visible (h : src.partFindings e split part pi = some found) :
    (∀ x ∈ found, x.1 = .beforeWithdrawal → ∀ s ∈ x.2.streams, s.transitions ≠ []) ↔
      ∀ shape, preShape part = some shape → shape ≠ [] := by
  rcases partFindings_cases h with ⟨hpre, c, rfl, rfl⟩ | ⟨shape, hpre, hw, c, c', hc, -, rfl⟩
  · simp [hpre]
  · obtain ⟨hne, hsame, -⟩ := preShape_eq_some_iff.1 hpre
    have hshape : ∀ rec ∈ part, rec.beforeCut.stream.transitions.map (·.shape) = shape := by
      intro rec hrec
      obtain ⟨i, hi⟩ := Option.ne_none_iff_exists'.1 (hw rec hrec)
      refine hsame _ (mem_shapesBefore.2 ⟨rec, hrec, i, hi, ?_⟩)
      simp [StreamRecord.beforeCut, project, hi]
    obtain ⟨_, hmem⟩ := List.exists_mem_of_ne_nil _ hne
    obtain ⟨first, hfirst, -⟩ := mem_shapesBefore.1 hmem
    simp only [List.mem_cons, List.not_mem_nil, or_false, forall_eq_or_imp, forall_eq, reduceCtorEq,
      false_implies, and_true, true_implies, hpre, Option.some.injEq, forall_eq', emit_streams, hc,
      List.map_map, List.mem_map, Function.comp_apply, forall_exists_index, and_imp,
      forall_apply_eq_imp_iff₂]
    constructor
    · rintro hall rfl
      exact hall first hfirst (List.map_eq_nil_iff.1 (hshape first hfirst))
    · intro hshape_ne rec hrec hnil
      exact hshape_ne (by rw [← hshape rec hrec, hnil]; rfl)

end Part

/-! ## The findings of an episode -/

/-- No partition is split that has a stream without a withdrawal. -/
theorem episodeFindings_isSome (hchg : e.effectKind ≠ .noRouteStateChange) :
    (src.episodeFindings e).isSome = true ↔ ∀ part ∈ src.partitions e, ∀ shape,
      preShape part = some shape → ∀ rec ∈ part, rec.withdrawalAt ≠ none := by
  simp only [FindingSources.episodeFindings, if_neg hchg, Option.isSome_map, mapM_isSome, ne_eq,
    ← Option.isSome_iff_ne_none, partFindings_isSome]
  constructor
  · intro h part hpart
    obtain ⟨i, hi, rfl⟩ := List.getElem_of_mem hpart
    exact h _ (List.mk_mem_zipIdx_iff_getElem?.2 (List.getElem?_eq_getElem hi))
  · exact fun h p hp => h p.1 (List.fst_mem_of_mem_zipIdx hp)

theorem episodeFindings_rows (hchg : e.effectKind ≠ .noRouteStateChange)
    {found : List (Segment × RoutingFinding)} (h : src.episodeFindings e = some found) :
    ∃ rows, List.Forall₂ (fun part row => ∃ split pi, src.partFindings e split part pi = some row)
      (src.partitions e) rows ∧ found = rows.flatten := by
  rw [FindingSources.episodeFindings, if_neg hchg] at h
  obtain ⟨rows, hrows, rfl⟩ := Option.map_eq_some_iff.1 h
  refine ⟨rows, ?_, rfl⟩
  rw [← List.zipIdx_map_fst 0 (src.partitions e), List.forall₂_map_left_iff]
  exact (mapM_forall₂ hrows).imp fun p _ hrow => ⟨_, p.2, hrow⟩

/-- **A changed episode without a panic is covered** where the partitions that are split have
something before their withdrawals. -/
theorem coversEpisode_iff (hchg : e.effectKind ≠ .noRouteStateChange)
    {found : List (Segment × RoutingFinding)} (h : src.episodeFindings e = some found) :
    CoversEpisode src e found ↔
      ∀ part ∈ src.partitions e, ∀ shape, preShape part = some shape → shape ≠ [] := by
  obtain ⟨rows, hrows, rfl⟩ := episodeFindings_rows hchg h
  constructor
  · intro hcov part hpart
    obtain ⟨row, ⟨split, pi, hrow⟩, hsub⟩ := row_of_mem hrows hpart
    exact (partFindings_visible hrow).1 fun x hx => hcov.visible x (hsub x hx)
  · intro hshape
    refine ⟨fun s hs => ?_, ?_, fun x hx => ?_⟩
    · obtain ⟨part, hpart, hrec⟩ := List.mem_flatten.1
        (flatten_partitions_perm.mem_iff.2 (List.mem_map_of_mem (f := src.streamRecord e) hs))
      obtain ⟨row, ⟨split, pi, hrow⟩, hsub⟩ := row_of_mem hrows hpart
      obtain ⟨x, hx, hpfx⟩ := partFindings_streams hrow _ hrec
      exact ⟨x, hsub x hx, hpfx⟩
    · refine (flatMap_flatten_perm hrows fun part row ⟨split, pi, hrow⟩ =>
        partFindings_told hrow).trans ?_
      have htold := (@flatten_partitions_perm src e).flatMap_right StreamRecord.told
      rw [← List.flatMap_id', List.flatMap_assoc] at htold
      refine htold.trans (.of_eq ?_)
      simp only [FindingSources.records, List.flatMap_map]
      rfl
    · obtain ⟨part, hpart, row, ⟨split, pi, hrow⟩, hx⟩ := row_of_mem_flatten hrows hx
      exact (partFindings_visible hrow).2 (hshape part hpart) x hx

theorem preShape_of_alikeBefore {s : EpisodeStream} {i : Nat} (hs : s ∈ e.streams)
    (hi : withdrawalIn (src.transitionsOf e s) = some i) (halike : src.AlikeBefore e s i) :
    preShape (src.partitionOf e s) = some (((src.transitionsOf e s).take i).map (·.shape)) := by
  refine preShape_eq_some_iff.2 ⟨?_, fun sh hsh => ?_, fun sh hsh => ?_⟩
  · exact List.ne_nil_of_mem (mem_shapesBefore.2 ⟨_, mem_partitionOf.2 ⟨s, hs, rfl, rfl⟩, i, hi, rfl⟩)
  · obtain ⟨rec, hrec, j, hj, rfl⟩ := mem_shapesBefore.1 hsh
    obtain ⟨s', hs', hsig, rfl⟩ := mem_partitionOf.1 hrec
    exact halike.2 s' hs' hsig j hj
  · obtain ⟨t, ht, rfl⟩ := List.mem_map.1 hsh
    exact halike.1 t ht

theorem alikeBefore_of_preShape {s₀ : EpisodeStream} {shape : List TransitionShape}
    (h : preShape (src.partitionOf e s₀) = some shape) :
    ∃ s ∈ e.streams, src.signature e s = src.signature e s₀ ∧ ∃ i,
      withdrawalIn (src.transitionsOf e s) = some i ∧ src.AlikeBefore e s i ∧
      ((src.transitionsOf e s).take i).map (·.shape) = shape := by
  obtain ⟨hne, hsame, hpath⟩ := preShape_eq_some_iff.1 h
  obtain ⟨sh, hsh⟩ := List.exists_mem_of_ne_nil _ hne
  obtain ⟨rec, hrec, i, hi, heq⟩ := mem_shapesBefore.1 hsh
  obtain ⟨s, hs, hsig, rfl⟩ := mem_partitionOf.1 hrec
  rw [hsame sh hsh] at heq
  refine ⟨s, hs, hsig, i, hi, ⟨fun t ht => ?_, fun s' hs' hsig' j hj => ?_⟩, heq⟩
  · exact hpath t.shape (heq ▸ List.mem_map_of_mem ht)
  · have hrec' := mem_partitionOf.2 ⟨s', hs', hsig'.trans hsig, rfl⟩
    exact (hsame _ (mem_shapesBefore.2 ⟨_, hrec', j, hj, rfl⟩)).trans heq.symm

/-- The condition on the evidence is the condition on the partitions. -/
theorem splitsWell_iff : src.SplitsWell e ↔ ∀ part ∈ src.partitions e, ∀ shape,
    preShape part = some shape → shape ≠ [] ∧ ∀ rec ∈ part, rec.withdrawalAt ≠ none := by
  constructor
  · intro hwell part hpart shape hshape
    obtain ⟨s₀, hs₀, rfl⟩ := mem_partitions.1 hpart
    obtain ⟨s, hs, hsig, i, hi, halike, heq⟩ := alikeBefore_of_preShape hshape
    obtain ⟨hi0, hall⟩ := hwell s hs i hi halike
    refine ⟨?_, fun rec hrec => ?_⟩
    · rintro rfl
      obtain ⟨hlt, -⟩ := List.findIdx?_eq_some_iff_getElem.1 hi
      rcases List.take_eq_nil_iff.1 (List.map_eq_nil_iff.1 heq) with h0 | hnil
      · exact hi0 h0
      · exact absurd hlt (by simp [hnil])
    · obtain ⟨s', hs', hsig', rfl⟩ := mem_partitionOf.1 hrec
      exact hall s' hs' (hsig'.trans hsig.symm)
  · intro hparts s hs i hi halike
    obtain ⟨hne, hall⟩ := hparts _ (mem_partitions.2 ⟨s, hs, rfl⟩) _
      (preShape_of_alikeBefore hs hi halike)
    refine ⟨fun h0 => hne (by rw [h0]; rfl), fun s' hs' hsig => ?_⟩
    exact hall _ (mem_partitionOf.2 ⟨s', hs', hsig, rfl⟩)

/-! ## All episodes -/

theorem buildFindings_isSome {episodes : List ObserverEpisode} :
    (buildFindings src episodes).isSome = true ↔
      ∀ e ∈ episodes, (src.episodeFindings e).isSome = true := by
  unfold buildFindings
  cases h : episodes.mapM src.episodeFindings with
  | none => simpa [h, Option.isSome_iff_ne_none] using mt mapM_isSome.2 (by simp [h])
  | some found => simpa [Option.isSome_iff_ne_none] using mapM_isSome.1 (Option.isSome_of_mem h)

theorem mem_buildFindings {episodes : List ObserverEpisode} {findings : List RoutingFinding}
    (h : buildFindings src episodes = some findings) {f : RoutingFinding} : f ∈ findings ↔
      ∃ e ∈ episodes, ∃ found, src.episodeFindings e = some found ∧ ∃ seg, (seg, f) ∈ found := by
  obtain ⟨rows, hrows, heq⟩ := Option.bind_eq_some_iff.1 h
  obtain rfl := Option.some.inj heq
  have hall := mapM_forall₂ hrows
  simp only [mem_sortBy, List.mem_map, Prod.exists, exists_eq_right]
  constructor
  · rintro ⟨seg, hmem⟩
    obtain ⟨e, he, found, hfound, hmem⟩ := row_of_mem_flatten hall hmem
    exact ⟨e, he, found, hfound, seg, hmem⟩
  · rintro ⟨e, he, found, hfound, seg, hmem⟩
    obtain ⟨found', hfound', hsub⟩ := row_of_mem hall he
    obtain rfl := Option.some.inj (hfound.symm.trans hfound')
    exact ⟨seg, hsub _ hmem⟩

/-- **Every stream and every transition is told once, without a panic, exactly where the streams
that are split were all withdrawn, after something else.** -/
theorem findingsCover_iff (src : FindingSources) (episodes : List ObserverEpisode) :
    FindingsCover src episodes ↔
      ∀ e ∈ episodes, e.effectKind ≠ .noRouteStateChange → src.SplitsWell e := by
  constructor
  · rintro ⟨findings, -, hcov⟩ e he hchg
    obtain ⟨found, hfound, -, hcov⟩ := hcov e he hchg
    have hall := (episodeFindings_isSome hchg).1 (Option.isSome_of_mem hfound)
    exact splitsWell_iff.2 fun part hpart shape hshape =>
      ⟨(coversEpisode_iff hchg hfound).1 hcov part hpart shape hshape, hall part hpart shape hshape⟩
  · intro hwell
    have hsome : ∀ e ∈ episodes, (src.episodeFindings e).isSome = true := by
      intro e he
      by_cases hchg : e.effectKind = .noRouteStateChange
      · simp [FindingSources.episodeFindings, hchg]
      · exact (episodeFindings_isSome hchg).2 fun part hpart shape hshape =>
          (splitsWell_iff.1 (hwell e he hchg) part hpart shape hshape).2
    obtain ⟨findings, hfindings⟩ := Option.isSome_iff_exists.1 (buildFindings_isSome.2 hsome)
    refine ⟨findings, hfindings, fun e he hchg => ?_⟩
    obtain ⟨found, hfound⟩ := Option.isSome_iff_exists.1 (hsome e he)
    refine ⟨found, hfound, fun x hx => ?_, ?_⟩
    · exact (mem_buildFindings hfindings).2 ⟨e, he, found, hfound, x.1, hx⟩
    · exact (coversEpisode_iff hchg hfound).2 fun part hpart shape hshape =>
        (splitsWell_iff.1 (hwell e he hchg) part hpart shape hshape).1

/-- **Bug**: one stream that was not withdrawn, among streams that went the same way before they
were, and no finding of any episode is built. -/
theorem buildFindings_panics {episodes : List ObserverEpisode} {s s' : EpisodeStream} {i : Nat}
    (he : e ∈ episodes) (hchg : e.effectKind ≠ .noRouteStateChange)
    (hs : s ∈ e.streams) (hi : withdrawalIn (src.transitionsOf e s) = some i)
    (halike : src.AlikeBefore e s i) (hs' : s' ∈ e.streams)
    (hsig : src.signature e s' = src.signature e s)
    (hnone : withdrawalIn (src.transitionsOf e s') = none) : buildFindings src episodes = none := by
  rw [← Option.not_isSome_iff_eq_none, buildFindings_isSome]
  intro hall
  have hshape := preShape_of_alikeBefore hs hi halike
  exact (episodeFindings_isSome hchg).1 (hall e he) _ (mem_partitions.2 ⟨s, hs, rfl⟩) _ hshape _
    (mem_partitionOf.2 ⟨s', hs', hsig, rfl⟩) hnone

/-! ### A prefix that is only withdrawn and comes back -/

def absentPrefix : EpisodeStream where
  pfx := "10.0.0.0/24"
  category := "RouteWithdrawn"
  withdrawn := true
  restored := true
  baselineInstances := 1
  maxActiveInstances := 1
  transitionCount := 2
  addPathAmbiguous := false
  firstChangeUtc := some "2019-08-21T16:45:25Z"
  restorationTimeUtc := some "2019-08-21T16:45:27Z"
  evidenceRefs := ""

def absentEpisode : ObserverEpisode where
  analysisRun := 1
  observerSession := "routeviews/route-views2 peer 198.32.160.1"
  observerSite := "Eugene, Oregon, US"
  observerRegion := "AMER"
  peerAsn := some 64512
  observedPeerAsns := []
  peerLabel := "AS64512"
  peerRole := "transit"
  relationship := .direct
  namedPathPlane := ""
  effectKind := .temporaryStreamAbsence
  firstChange := some "2019-08-21T16:45:25Z"
  lastChange := some "2019-08-21T16:45:27Z"
  restorationStart := some "2019-08-21T16:45:27Z"
  restorationEnd := some "2019-08-21T16:45:27Z"
  baselineStreamCount := 1
  changedStreamCount := 1
  restoredStreamCount := 1
  distinctPrefixCount := 1
  routeInstanceCount := 1
  unresolvedCount := 0
  transitionCount := 2
  endState := .baselineRestored
  cooldownOutcome := .none
  coverageStatus := .complete
  representativeEvidence := ""
  streams := [absentPrefix]

def absentEvidence : StreamPathEvidence where
  transitions := [
    ⟨"2019-08-21T16:45:25Z", "Withdrawal", [64512, 2603], []⟩,
    ⟨"2019-08-21T16:45:27Z", "ReturnToBaseline", [], [64512, 2603]⟩]
  baselinePath := [64512, 2603]
  changedPath := none
  finalPath := some [64512, 2603]
  visibilityRestoredAt := some "2019-08-21T16:45:27Z"
  equivalentRouteRestoredAt := none
  reviewedPlaneRestoredAt := none
  exactBaselineRestoredAt := some "2019-08-21T16:45:27Z"

def absentSources : FindingSources where
  paths := fun _ _ => some absentEvidence
  identities := []
  targetLabel := "TARGET (AS2603)"
  targetOriginAsns := [2603]
  scopeLimit := ""
  runEventIds := fun _ => some "EV"
  eventDate := "2019-08-21"
  analysisEnd := "2019-08-21T18:00:00Z"
  toLowercase := id

/-- **Bug**: of a prefix that was withdrawn and came back, a path change is told that has no
transition. -/
theorem withdrawal_told_as_path_change : ¬ FindingsCover absentSources [absentEpisode] := by
  rintro ⟨findings, -, hcov⟩
  obtain ⟨found, hfound, -, hcov⟩ := hcov absentEpisode List.mem_cons_self (by decide)
  have hpart : absentSources.partitionOf absentEpisode absentPrefix ∈
      absentSources.partitions absentEpisode :=
    mem_partitions.2 ⟨absentPrefix, List.mem_cons_self, rfl⟩
  exact (coversEpisode_iff (by decide) hfound).1 hcov _ hpart [] (by decide +kernel) rfl

end Inim
