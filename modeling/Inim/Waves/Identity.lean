import Inim.Lib.Joined
import Inim.Waves.Detect
/-!
# Whose transitions a wave reports (`waves.rs:57-265`)

A transition has its prefix and its observer in its key. `build_wave` and `sequitur_motif` take
them from the after-state, which carries the same ones if there is a route, and for a withdrawal
answers `0.0.0.0/0` and `absent`. The clusters, the motif of a group and the independence of the
hash maps' order are as they should be; the names and the groups are iff every transition leaves a
route (`wavesReportKeys_iff`).

| here | there |
| --- | --- |
| `observerText` | the observer of a key, as the route store writes it (`routes.rs:220`) |
| `KeyedState`   | what the store promises of an after-state |
-/

namespace Inim

open Std Inim.Lib Inim.Sequitur

/-! ## The order of the hash maps -/

instance : TransCmp motifOrder := by
  have : TransCmp fun a b : String × List GroupMotif => compare b.1 a.1 :=
    inferInstanceAs (TransCmp fun a b => compareOn Prod.fst b a)
  have : TransCmp (compareOn fun a : String × List GroupMotif => a.2.length) := inferInstance
  unfold motifOrder
  infer_instance

theorem groupMotif_order (order order' : MapOrder) (key : GroupKey) (group : List RouteTransition) :
    groupMotif order key group = groupMotif order' key group := by
  unfold groupMotif
  simp only [build_order order order']

/-- **The motif of a group is made of its kinds**, in time order. -/
theorem groupMotif_expanded (order : MapOrder) (key : GroupKey) {group : List RouteTransition}
    (h : group ≠ []) : ∃ m, groupMotif order key group = some m ∧
      m.expanded = (sortBy byTimestamp group).map (fun t => transitionSymbol t.kind) ∧
      m.scope = key.1 ++ " " ++ key.2 := by
  have hne : (sortBy byTimestamp group).map (fun t => transitionSymbol t.kind) ≠ [] := by
    rw [Ne, List.map_eq_nil_iff, ← List.length_eq_zero_iff, (sortBy_perm _ _).length_eq,
      List.length_eq_zero_iff]
    exact h
  unfold groupMotif
  dsimp only
  generalize (sortBy byTimestamp group).map (fun t => transitionSymbol t.kind) = symbols at hne ⊢
  split
  · obtain ⟨-, -, ⟨grammar, hbuild, hspells⟩, -⟩ := build_expand order symbols
    have hexpand : grammar.expand = symbols := hspells.expand
    rw [hbuild _ (Nat.lt_succ_self _)]
    simp only [hexpand, hne, if_false]
    exact ⟨_, rfl, rfl, rfl⟩
  · next hshort =>
    obtain ⟨sym, rest, rfl⟩ := List.exists_cons_of_ne_nil hne
    obtain rfl : rest = [] := by
      rw [← List.length_eq_zero_iff]
      simp only [List.length_cons] at hshort
      omega
    exact ⟨_, rfl, rfl, rfl⟩

section Order
variable {group : List RouteTransition} (order order' : HashOrder)

/-- No two groups have one scope text. -/
def ScopesDistinct (group : List RouteTransition) : Prop :=
  ∀ e ∈ motifGroups group, ∀ e' ∈ motifGroups group,
    e.1.1 ++ " " ++ e.1.2 = e'.1.1 ++ " " ++ e'.1.2 → e.1 = e'.1

theorem groupMotifs_perm : (groupMotifs order group).Perm (groupMotifs order' group) := by
  have hsame : (fun e : GroupKey × List RouteTransition => groupMotif (order.rules e.1) e.1 e.2) =
      fun e => groupMotif (order'.rules e.1) e.1 e.2 := by
    funext e
    exact groupMotif_order _ _ _ _
  unfold groupMotifs
  rw [hsame]
  exact ((order.groups_perm _).trans (order'.groups_perm _).symm).filterMap _

theorem groupMotif_scope_injective (h : ScopesDistinct group) :
    ∀ m ∈ groupMotifs order group, ∀ m' ∈ groupMotifs order group, m.scope = m'.scope → m = m' := by
  intro m hm m' hm' hscope
  obtain ⟨e, he, hmotif⟩ := List.mem_filterMap.1 hm
  obtain ⟨e', he', hmotif'⟩ := List.mem_filterMap.1 hm'
  have he := (order.groups_perm _).mem_iff.1 he
  have he' := (order.groups_perm _).mem_iff.1 he'
  have hof : ∀ e ∈ motifGroups group, ∀ m, groupMotif (order.rules e.1) e.1 e.2 = some m →
      m.scope = e.1.1 ++ " " ++ e.1.2 := by
    intro e he m hm
    obtain ⟨m', hm', -, hs⟩ := groupMotif_expanded (order.rules e.1) e.1 (groupOn_ne_nil _ he)
    obtain rfl := Option.some.inj (hm.symm.trans hm')
    exact hs
  have hkey := h e he e' he' (by rw [← hof e he m hmotif, ← hof e' he' m' hmotif', hscope])
  have hee : e = e' := List.inj_on_of_nodup_map (map_fst_groupOn_nodup _ _) he he' hkey
  subst hee
  exact Option.some.inj (hmotif.symm.trans hmotif')

/-- The entries of `motif_counts`, each with its motifs in the order of their scopes. -/
def sortedCounts (motifs : List GroupMotif) : List (String × List GroupMotif) :=
  (groupOn (fun g : GroupMotif => String.intercalate " " g.expanded) motifs).map
    fun e => (e.1, sortBy (compareOn (·.scope)) e.2)

theorem map_fst_sortedCounts (motifs : List GroupMotif) :
    ((sortedCounts motifs).map Prod.fst).Nodup := by
  unfold sortedCounts
  rw [List.map_map]
  exact map_fst_groupOn_nodup _ motifs

theorem sortedCounts_perm {motifs motifs' : List GroupMotif} (h : motifs.Perm motifs')
    (hinj : ∀ m ∈ motifs, ∀ m' ∈ motifs, m.scope = m'.scope → m = m') :
    (sortedCounts motifs).Perm (sortedCounts motifs') := by
  refine (List.perm_ext_iff_of_nodup (List.Nodup.of_map _ (map_fst_sortedCounts motifs))
    (List.Nodup.of_map _ (map_fst_sortedCounts motifs'))).2 fun e => ?_
  have hsort : ∀ k : String, sortBy (compareOn (·.scope))
      (motifs.filter fun g => decide (String.intercalate " " g.expanded = k)) =
      sortBy (compareOn (·.scope))
        (motifs'.filter fun g => decide (String.intercalate " " g.expanded = k)) := by
    intro k
    refine sortBy_eq_of_perm (h.filter _) fun a ha b hb hab => ?_
    exact hinj a (List.mem_of_mem_filter ha) b (List.mem_of_mem_filter hb)
      (LawfulEqCmp.compare_eq_iff_eq.1 hab)
  obtain ⟨k, best⟩ := e
  simp only [sortedCounts, List.mem_map, Prod.exists, mem_groupOn, Prod.mk.injEq]
  constructor
  · rintro ⟨k, -, ⟨⟨g, hg, hk⟩, rfl⟩, rfl, rfl⟩
    exact ⟨k, _, ⟨⟨g, h.mem_iff.1 hg, hk⟩, rfl⟩, rfl, (hsort k).symm⟩
  · rintro ⟨k, -, ⟨⟨g, hg, hk⟩, rfl⟩, rfl, rfl⟩
    exact ⟨k, _, ⟨⟨g, h.mem_iff.2 hg, hk⟩, rfl⟩, rfl, hsort k⟩

/-- The best entry with its motifs in order, read off the sorted entries. -/
theorem sequiturMotif_eq : sequiturMotif order group =
    (maxBy motifOrder ((order.counts (groupOn (fun g : GroupMotif => String.intercalate " " g.expanded)
        (groupMotifs order group))).map fun e => (e.1, sortBy (compareOn (·.scope)) e.2))).map
      fun best => motifOf group.length best.1 best.2 := by
  have hcmp : (fun a b : String × List GroupMotif => motifOrder
      (a.1, sortBy (compareOn (·.scope)) a.2) (b.1, sortBy (compareOn (·.scope)) b.2)) =
      motifOrder := by
    funext a b
    simp only [motifOrder, compareLex, compareOn, (sortBy_perm _ _).length_eq]
  rw [maxBy_map, hcmp, Option.map_map]
  rfl

/-- **The motif does not depend on the order of the hash maps** where the scopes are told apart. -/
theorem sequiturMotif_order (h : ScopesDistinct group) :
    sequiturMotif order group = sequiturMotif order' group := by
  have hcounts : ∀ o : HashOrder, ((o.counts (groupOn
      (fun g : GroupMotif => String.intercalate " " g.expanded) (groupMotifs o group))).map
        fun e => (e.1, sortBy (compareOn (·.scope)) e.2)).Perm (sortedCounts (groupMotifs o group)) :=
    fun o => (o.counts_perm _).map _
  have hperm := (hcounts order).trans ((sortedCounts_perm (groupMotifs_perm order order')
    (groupMotif_scope_injective order h)).trans (hcounts order').symm)
  have hnodup := ((hcounts order).map Prod.fst).nodup_iff.2 (map_fst_sortedCounts _)
  rw [sequiturMotif_eq, sequiturMotif_eq, maxBy_eq_of_perm hperm fun a ha b hb hab => ?_]
  simp only [motifOrder, compareLex_eq_eq, compareOn, LawfulEqCmp.compare_eq_iff_eq] at hab
  exact List.inj_on_of_nodup_map hnodup ha hb hab.2.symm

theorem buildWave_order (h : ScopesDistinct group) (id : Nat) (start : DateTime) :
    buildWave order id group start = buildWave order' id group start := by
  unfold buildWave
  rw [sequiturMotif_order order order' h]

end Order

/-! ## Keys and after-states -/

/-- `format!("{}:{}", collector, peer_ip)`. -/
def observerText (k : RouteKey) : String := k.collector ++ ":" ++ k.peerIp.display

/-- The after-state of `t`, if any, is one of its key; the parser writes prefixes without blanks. -/
structure KeyedState (t : RouteTransition) : Prop where
  pfx : ∀ s, t.to_.state = some s → s.pfx = t.key.pfx
  observer : ∀ s, t.to_.state = some s → s.observer = observerText t.key
  noBlank : ' ' ∉ t.key.pfx.toList

/-- The transitions of a run are so. -/
theorem transitionsAfter_keyed (eventStart eventEnd cooldownEnd : DateTime)
    {l : List RouteObservation} (hl : ∀ o ∈ l, ' ' ∉ o.pfx.toList) :
    ∀ t ∈ transitionsAfter eventStart eventEnd cooldownEnd l, KeyedState t := by
  induction l using List.reverseRecOn with
  | nil => exact fun t h => by cases h
  | append_singleton l o ih =>
    intro t ht
    rw [transitionsAfter_concat, List.mem_append] at ht
    rcases ht with ht | ht
    · exact ih (fun o ho => hl o (by simp [ho])) t ht
    by_cases he : emits eventStart cooldownEnd l o = true
    · rw [if_pos he, List.mem_singleton] at ht
      subst ht
      rw [emits_eq eventStart eventEnd, Bool.and_eq_true] at he
      have hstate : ∀ s, (transitionFor eventStart eventEnd cooldownEnd
          (Recon.run eventStart eventEnd cooldownEnd l) o).to_.state = some s →
          s = observationToState o := by
        intro s hs
        change nextState _ o = some s at hs
        have hchange := he.2
        cases hk : o.kind with
        | ribEntry => simp [isChange, hk] at hchange
        | sessionBoundary => simp [isChange, hk] at hchange
        | withdrawal => simp [nextState, hk] at hs
        | announcement =>
          have hne : ((Recon.run eventStart eventEnd cooldownEnd l).store.states
              (observationKey o)).map (·.attributes) ≠ some (observationAttributes o) := by
            simpa [isChange, hk] using hchange
          rw [nextState, hk] at hs
          exact (Option.some.inj ((if_neg hne).symm.trans hs)).symm
      exact ⟨fun s hs => hstate s hs ▸ rfl, fun s hs => hstate s hs ▸ rfl, hl o (by simp)⟩
    · rw [if_neg he] at ht
      cases ht

theorem colon_mem_observerText (k : RouteKey) : ':' ∈ (observerText k).toList := by
  simp [observerText, String.toList_append]

section Reports
variable (order : Nat → HashOrder) (transitions : List RouteTransition) (maxGap : Int)

/-- What is promised of `detect_waves`. -/
structure WavesReportKeys : Prop where
  waves : detectWaves order transitions maxGap = (waveGroups transitions maxGap).mapIdx
    fun i g => buildWave (order (i + 1)) (i + 1) g (firstTimestamp g)
  partition : (waveGroups transitions maxGap).flatten.Perm transitions
  nonempty : ∀ g ∈ waveGroups transitions maxGap, g ≠ []
  inTime : (waveGroups transitions maxGap).flatten.Pairwise
    fun a b => a.to_.timestamp ≤ b.to_.timestamp
  near : ∀ g ∈ waveGroups transitions maxGap, g.IsChain
    fun a b => b.to_.timestamp - a.to_.timestamp ≤ maxGap
  gaps : (waveGroups transitions maxGap).IsChain fun g h =>
    ∀ a ∈ g.getLast?, ∀ b ∈ h.head?, maxGap < b.to_.timestamp - a.to_.timestamp
  /-- The prefixes of the keys, and no other. -/
  prefixes : ∀ g ∈ waveGroups transitions maxGap, ∀ o id start pfx,
    pfx ∈ (buildWave o id g start).affectedPrefixes ↔ ∃ t ∈ g, t.key.pfx = pfx
  peers : ∀ g ∈ waveGroups transitions maxGap, ∀ o id start peer,
    peer ∈ (buildWave o id g start).affectedPeers ↔ ∃ t ∈ g, observerText t.key = peer
  /-- Each motif is made of the transitions of one stream, in time order. -/
  motifs : ∀ g ∈ waveGroups transitions maxGap, ∀ e ∈ motifGroups g, ∀ o, ∃ opk m,
    sortBy byTimestamp e.2 = g.filter (fun t => decide (t.key.observerPrefixKey = opk)) ∧
      groupMotif o e.1 e.2 = some m ∧
      m.expanded = (g.filter fun t => decide (t.key.observerPrefixKey = opk)).map
        fun t => transitionSymbol t.kind
  anyOrder : ∀ order', detectWaves order' transitions maxGap = detectWaves order transitions maxGap

/-- Every transition leaves a route, and no two streams of one wave have one observer text and
prefix (a colon in a collector's name can do that). -/
structure KeysTold : Prop where
  present : ∀ t ∈ transitions, t.to_.state.isSome = true
  distinct : ∀ g ∈ waveGroups transitions maxGap, ∀ t ∈ g, ∀ u ∈ g,
    observerText t.key = observerText u.key → t.key.pfx = u.key.pfx →
    t.key.observerPrefixKey = u.key.observerPrefixKey

variable {transitions maxGap}

theorem byTimestamp_le {a b : RouteTransition} (h : CmpLE byTimestamp a b) :
    a.to_.timestamp ≤ b.to_.timestamp := isLE_compare.1 h

theorem byTimestamp_of_le {a b : RouteTransition} (h : a.to_.timestamp ≤ b.to_.timestamp) :
    CmpLE byTimestamp a b := isLE_compare.2 h

theorem flatten_waveGroups (transitions : List RouteTransition) (maxGap : Int) :
    (waveGroups transitions maxGap).flatten = sortBy byTimestamp transitions := flatten_clusters _

theorem waveGroups_sorted (transitions : List RouteTransition) (maxGap : Int) :
    (waveGroups transitions maxGap).flatten.Pairwise
      fun a b => a.to_.timestamp ≤ b.to_.timestamp := by
  rw [flatten_waveGroups]
  have : TransCmp byTimestamp := inferInstanceAs (TransCmp (compareOn _))
  exact (sortBy_pairwise _).imp byTimestamp_le

theorem mem_of_mem_waveGroups {g : List RouteTransition} (hg : g ∈ waveGroups transitions maxGap)
    {t : RouteTransition} (ht : t ∈ g) : t ∈ transitions := by
  have hflat : t ∈ (waveGroups transitions maxGap).flatten := List.mem_flatten.2 ⟨g, hg, ht⟩
  rwa [flatten_waveGroups, mem_sortBy] at hflat

/-- What an after-state that is there answers. -/
theorem KeyedState.reads {t : RouteTransition} (h : KeyedState t) (hs : t.to_.state.isSome = true) :
    t.to_.pfx = t.key.pfx ∧ t.to_.observer = observerText t.key := by
  obtain ⟨s, hs⟩ := Option.isSome_iff_exists.1 hs
  rw [EvidencedRouteState.pfx, EvidencedRouteState.observer, hs]
  exact ⟨h.pfx s hs, h.observer s hs⟩

/-- Prefixes without blanks end where the scope does, so the scope tells observer and prefix. -/
theorem scope_injective {o o' p p' : String} (hp : ' ' ∉ p.toList) (hp' : ' ' ∉ p'.toList)
    (h : o ++ " " ++ p = o' ++ " " ++ p') : o = o' ∧ p = p' := by
  have hlist : p.toList.reverse ++ ' ' :: o.toList.reverse =
      p'.toList.reverse ++ ' ' :: o'.toList.reverse := by
    simpa using congrArg (fun s : String => s.toList.reverse) h
  have hinj := append_cons_inj (by simpa using hp) (by simpa using hp') hlist
  exact ⟨String.toList_injective (List.reverse_injective hinj.2),
    String.toList_injective (List.reverse_injective hinj.1)⟩

theorem scopesDistinct (hkeyed : ∀ t ∈ transitions, KeyedState t)
    (hpresent : ∀ t ∈ transitions, t.to_.state.isSome = true) {g : List RouteTransition}
    (hg : g ∈ waveGroups transitions maxGap) : ScopesDistinct g := by
  have hblank : ∀ e ∈ motifGroups g, ' ' ∉ e.1.2.toList := by
    intro e he
    obtain ⟨⟨t, ht, hk⟩, -⟩ := (mem_groupOn _).1 he
    have hmem := mem_of_mem_waveGroups hg ht
    rw [← hk, ((hkeyed t hmem).reads (hpresent t hmem)).1]
    exact (hkeyed t hmem).noBlank
  intro e he e' he' hscope
  obtain ⟨ho, hp⟩ := scope_injective (hblank e he) (hblank e' he') hscope
  exact Prod.ext ho hp

variable (transitions maxGap)

/-- **What waves report is what the keys say** exactly where every transition leaves a route and
observer text and prefix tell the streams of a wave apart. -/
theorem wavesReportKeys_iff (hkeyed : ∀ t ∈ transitions, KeyedState t) :
    WavesReportKeys order transitions maxGap ↔ KeysTold transitions maxGap := by
  constructor
  · intro h
    have hpresent : ∀ t ∈ transitions, t.to_.state.isSome = true := by
      intro t ht
      by_contra hno
      obtain ⟨g, hg, htg⟩ := List.mem_flatten.1 (h.partition.mem_iff.2 ht)
      have hsentinel : "absent" ∈ (buildWave (order 0) 0 g 0).affectedPeers := by
        refine mem_sortDedup.2 (List.mem_map.2 ⟨t, htg, ?_⟩)
        rw [EvidencedRouteState.observer, Option.not_isSome_iff_eq_none.1 hno]
        rfl
      obtain ⟨u, -, hu⟩ := (h.peers g hg _ _ _ _).1 hsentinel
      have hcolon := colon_mem_observerText u.key
      rw [hu] at hcolon
      exact absurd hcolon (by decide)
    refine ⟨hpresent, fun g hg t ht u hu hobs hpfx => ?_⟩
    have hread : ∀ v ∈ g, (v.to_.observer, v.to_.pfx) = (observerText v.key, v.key.pfx) := by
      intro v hv
      have hmem := mem_of_mem_waveGroups hg hv
      obtain ⟨hp, ho⟩ := (hkeyed v hmem).reads (hpresent v hmem)
      rw [hp, ho]
    have he := (mem_groupOn (fun t : RouteTransition => (t.to_.observer, t.to_.pfx))).2
      ⟨⟨t, ht, rfl⟩, rfl⟩
    obtain ⟨opk, -, hstream, -⟩ := h.motifs g hg _ he .sorted
    have hof : ∀ v ∈ g, (v.to_.observer, v.to_.pfx) = (t.to_.observer, t.to_.pfx) →
        v.key.observerPrefixKey = opk := by
      intro v hv hsame
      have hmem : v ∈ g.filter fun t => decide (t.key.observerPrefixKey = opk) :=
        hstream ▸ mem_sortBy.2 (List.mem_filter.2 ⟨hv, decide_eq_true hsame⟩)
      exact of_decide_eq_true (List.mem_filter.1 hmem).2
    rw [hof t ht rfl, hof u hu (by rw [hread u hu, hread t ht, hobs, hpfx])]
  · intro h
    have hread : ∀ g ∈ waveGroups transitions maxGap, ∀ t ∈ g,
        t.to_.pfx = t.key.pfx ∧ t.to_.observer = observerText t.key := by
      intro g hg t ht
      have hmem := mem_of_mem_waveGroups hg ht
      exact (hkeyed t hmem).reads (h.present t hmem)
    have hsorted := waveGroups_sorted transitions maxGap
    refine ⟨detectWaves_eq order maxGap transitions, ?_, fun _ => ne_nil_of_mem_clusters, hsorted,
      fun g hg => ?_, ?_, fun g hg o id start pfx => ?_, fun g hg o id start peer => ?_,
      fun g hg e he o => ?_, fun order' => ?_⟩
    · rw [flatten_waveGroups]
      exact sortBy_perm _ _
    · exact (isChain_of_mem_clusters hg).imp fun a b hab => of_decide_eq_true hab
    · refine (isChain_clusters _).imp fun {g h} hgh a ha b hb => ?_
      exact Int.not_le.1 (of_decide_eq_false (hgh a ha b hb))
    · change pfx ∈ sortDedup compare (g.map (·.to_.pfx)) ↔ _
      rw [mem_sortDedup, List.mem_map]
      exact exists_congr fun t => and_congr_right fun ht => by rw [(hread g hg t ht).1]
    · change peer ∈ sortDedup compare (g.map (·.to_.observer)) ↔ _
      rw [mem_sortDedup, List.mem_map]
      exact exists_congr fun t => and_congr_right fun ht => by rw [(hread g hg t ht).2]
    · obtain ⟨⟨a, ha, hk⟩, hentry⟩ := (mem_groupOn _).1 he
      have hfilter : e.2 = g.filter fun t =>
          decide (t.key.observerPrefixKey = a.key.observerPrefixKey) := by
        rw [hentry]
        refine List.filter_congr fun t ht => decide_eq_decide.2 ?_
        rw [← hk, Prod.mk.injEq, (hread g hg t ht).1, (hread g hg t ht).2, (hread g hg a ha).1,
          (hread g hg a ha).2]
        constructor
        · rintro ⟨hobs, hpfx⟩
          exact h.distinct g hg t ht a ha hobs hpfx
        · intro hsame
          exact ⟨congrArg (fun k : ObserverPrefixKey => k.collector ++ ":" ++ k.peerIp.display) hsame,
            congrArg ObserverPrefixKey.pfx hsame⟩
      have hinTime : sortBy byTimestamp e.2 = e.2 := by
        refine sortBy_eq_self ?_
        rw [hfilter]
        exact ((List.pairwise_flatten.1 hsorted).1 g hg).sublist List.filter_sublist |>.imp
          byTimestamp_of_le
      obtain ⟨m, hm, hexp, -⟩ := groupMotif_expanded o e.1 (groupOn_ne_nil _ he)
      exact ⟨a.key.observerPrefixKey, m, hinTime.trans hfilter, hm,
        by rw [hexp, hinTime, hfilter]⟩
    · rw [detectWaves_eq, detectWaves_eq]
      refine List.ext_getElem (by simp) fun i hi hi' => ?_
      rw [List.getElem_mapIdx, List.getElem_mapIdx]
      exact buildWave_order _ _ (scopesDistinct hkeyed h.present (List.getElem_mem _)) _ _

end Reports

/-- A route of the table that moves. -/
def movedSample : List RouteObservation :=
  [.plain "rrc00" 0 .ribEntry 0 none [1, 2], .plain "rrc00" 1 .announcement 15 none [3, 2]]

theorem wavesReportKeys_moved :
    WavesReportKeys (fun _ => .inserted) (transitionsAfter 10 20 30 movedSample) 120000000000 := by
  refine (wavesReportKeys_iff _ _ _ (transitionsAfter_keyed 10 20 30 ?_)).2 ⟨?_, ?_⟩
  · decide
  · decide
  · decide +kernel

/-- A route of the table that is withdrawn. -/
def goneSample : List RouteObservation :=
  [.plain "rrc00" 0 .ribEntry 0 none [1, 2], .plain "rrc00" 1 .withdrawal 15 none]

/-- **Bug**: a wave with the withdrawal of `10.0.0.0/8` seen at `rrc00` reports `0.0.0.0/0` at
`absent`. -/
theorem withdrawal_reports_sentinels :
    (detectWaves (fun _ => .inserted) (transitionsAfter 10 20 30 goneSample) 120000000000).map
        (fun w => (w.affectedPrefixes, w.affectedPeers)) = [(["0.0.0.0/0"], ["absent"])] ∧
      ¬ WavesReportKeys (fun _ => .inserted) (transitionsAfter 10 20 30 goneSample) 120000000000 := by
  refine ⟨by decide +kernel, fun h => ?_⟩
  have hgroups : waveGroups (transitionsAfter 10 20 30 goneSample) 120000000000 =
      [transitionsAfter 10 20 30 goneSample] := by decide +kernel
  have hpfx := (h.prefixes (transitionsAfter 10 20 30 goneSample) (by simp [hgroups]) .inserted 0 0
    "0.0.0.0/0").1 (by decide +kernel)
  exact absurd hpfx (by decide)

end Inim
