import Inim.Routes.Order

/-!
# Is the deterministic order causal? (`derived_cache.rs:264-308`, `orchestrate.rs:344`, `:659-700`)

An archive's elements are numbered by `element_seq`, and the UPDATE archives by `archive_order`. The
RIBs all have archive order 0 and the first UPDATE archive has it as well, and the order does not look
at the kind. So at one timestamp an UPDATE of that archive stands before a RIB entry further down in
its file, and where the numbers agree the order of the input decides.

| here | there |
| --- | --- |
| `Identified`     | collector, archive order, element sequence and kind identify an observation |
| `CausallySound`  | RIB entries before the UPDATEs of their time, UPDATEs in archive and element order |
| `DeterministicSequence` | both for the numbered sequence of every arrangement |
-/

namespace Inim

open Std Inim.Lib

def RouteObservation.identity (o : RouteObservation) : CollectorId × Nat × Nat × ObservationKind :=
  (o.collector, o.provenance.archiveOrder, o.provenance.elementSeq, o.kind)

/-- The identity tells the observations of the multiset apart. -/
def Identified (obs : List RouteObservation) : Prop := (obs.map RouteObservation.identity).Nodup

def RouteObservation.fromUpdates (o : RouteObservation) : Bool := o.kind != .ribEntry

/-- `b` is not the RIB entry that `a` should come after, and `a`, `b` are in archive and element order
if they are updates: what is asked of `a` before `b`. -/
def Causal (a b : RouteObservation) : Prop :=
  a.collector = b.collector → a.timestamp = b.timestamp → a.fromUpdates = true →
    b.fromUpdates = true ∧ (a.provenance.archiveOrder < b.provenance.archiveOrder ∨
      a.provenance.archiveOrder = b.provenance.archiveOrder ∧
        a.provenance.elementSeq ≤ b.provenance.elementSeq)

def CausallySound (obs : List RouteObservation) : Prop := obs.Pairwise Causal

/-- Every arrangement is brought into one sequence, and it is sound. -/
def DeterministicSequence (obs : List RouteObservation) : Prop :=
  ∀ obs', obs'.Perm obs →
    assignDeterministicIds (sortDeterministic obs') = assignDeterministicIds (sortDeterministic obs) ∧
      CausallySound (assignDeterministicIds (sortDeterministic obs'))

/-! ## Numbers -/

/-- The observation without its number. -/
def RouteObservation.withoutId (o : RouteObservation) : RouteObservation := { o with id := 0 }

theorem order_withoutId (a b : RouteObservation) :
    deterministicObservationOrder a.withoutId b.withoutId = deterministicObservationOrder a b := rfl

theorem assign_withoutId (l : List RouteObservation) :
    (assignDeterministicIds l).map RouteObservation.withoutId = l.map RouteObservation.withoutId := by
  refine List.ext_getElem? fun i => ?_
  rw [assignDeterministicIds, List.getElem?_map, List.getElem?_map, List.getElem?_mapIdx,
    Option.map_map]
  rfl

theorem assign_eq_iff {l l' : List RouteObservation} :
    assignDeterministicIds l = assignDeterministicIds l' ↔
      l.map RouteObservation.withoutId = l'.map RouteObservation.withoutId := by
  constructor
  · intro h
    rw [← assign_withoutId, h, assign_withoutId]
  · intro h
    have hassign : ∀ l, assignDeterministicIds l =
        assignDeterministicIds (l.map RouteObservation.withoutId) := by
      intro l
      refine List.ext_getElem? fun i => ?_
      rw [assignDeterministicIds, assignDeterministicIds, List.getElem?_mapIdx, List.getElem?_mapIdx,
        List.getElem?_map, Option.map_map]
      rfl
    rw [hassign l, hassign l', h]

/-- Numbering does not touch what soundness is about. -/
theorem causallySound_assign (l : List RouteObservation) :
    CausallySound (assignDeterministicIds l) ↔ CausallySound l := by
  have hmap : ∀ l : List RouteObservation,
      CausallySound l ↔ CausallySound (l.map RouteObservation.withoutId) := fun l =>
    (List.pairwise_map (f := RouteObservation.withoutId) (R := Causal)).symm
  rw [hmap, assign_withoutId, ← hmap]

theorem sortDeterministic_withoutId (l : List RouteObservation) :
    (sortDeterministic l).map RouteObservation.withoutId =
      sortDeterministic (l.map RouteObservation.withoutId) :=
  (sortBy_map deterministicObservationOrder RouteObservation.withoutId l).symm

/-! ## One sequence -/

/-- Observations that tie are one observation. -/
def NoTies (obs : List RouteObservation) : Prop :=
  ∀ a ∈ obs, ∀ b ∈ obs, deterministicObservationOrder a b = .eq → a = b

section
variable {obs : List RouteObservation}

theorem eq_of_identity (h : Identified obs) {a b : RouteObservation} (ha : a ∈ obs) (hb : b ∈ obs)
    (hab : a.identity = b.identity) : a = b :=
  List.inj_on_of_nodup_map h ha hb hab

theorem exists_perm_swap {a b : RouteObservation} (ha : a ∈ obs) (hb : b ∈ obs) (hne : a ≠ b) :
    ∃ rest, (a :: b :: rest).Perm obs ∧ (b :: a :: rest).Perm obs := by
  have hb' : b ∈ obs.erase a := (List.mem_erase_of_ne hne.symm).2 hb
  have hperm : (a :: b :: (obs.erase a).erase b).Perm obs :=
    ((List.perm_cons_erase hb').symm.cons a).trans (List.perm_cons_erase ha).symm
  exact ⟨_, hperm, (List.Perm.swap ..).trans hperm⟩

/-- What ties with another observation goes where the input has it. -/
theorem noTies_of_deterministic (hid : Identified obs)
    (h : ∀ obs', obs'.Perm obs → assignDeterministicIds (sortDeterministic obs') =
      assignDeterministicIds (sortDeterministic obs)) : NoTies obs := by
  intro a ha b hb htie
  by_contra hne
  obtain ⟨rest, hab, hba⟩ := exists_perm_swap ha hb hne
  have heq := assign_eq_iff.1 ((h _ hab).trans (h _ hba).symm)
  rw [sortDeterministic_withoutId, sortDeterministic_withoutId] at heq
  have hsame : a.withoutId = b.withoutId := eq_of_sortBy_swap htie heq
  refine hne (eq_of_identity hid ha hb ?_)
  change a.withoutId.identity = b.withoutId.identity
  rw [hsame]

theorem sortDeterministic_perm (h : NoTies obs) {obs' : List RouteObservation} (hp : obs'.Perm obs) :
    sortDeterministic obs' = sortDeterministic obs :=
  (sortBy_eq_of_perm hp.symm h).symm

/-! ## Soundness -/

/-- Every RIB entry compares below the updates of its collector and time. -/
def RibFirst (obs : List RouteObservation) : Prop :=
  ∀ r ∈ obs, ∀ u ∈ obs, r.fromUpdates = false → u.fromUpdates = true → r.collector = u.collector →
    r.timestamp = u.timestamp → deterministicObservationOrder r u = .lt

/-- What the order says of two observations of one collector and time. -/
theorem archive_le_of_order {a b : RouteObservation} (hc : a.collector = b.collector)
    (ht : a.timestamp = b.timestamp) (h : CmpLE deterministicObservationOrder a b) :
    a.provenance.archiveOrder < b.provenance.archiveOrder ∨
      a.provenance.archiveOrder = b.provenance.archiveOrder ∧
        a.provenance.elementSeq ≤ b.provenance.elementSeq := by
  simp only [CmpLE, deterministicObservationOrder, compareLex, compareOn, hc, ht,
    ReflCmp.compare_self, Ordering.eq_then] at h
  rcases hao : compare a.provenance.archiveOrder b.provenance.archiveOrder with _ | _ | _
  · exact Or.inl (compare_lt_iff_lt.1 hao)
  · refine Or.inr ⟨Nat.compare_eq_eq.1 hao, ?_⟩
    by_contra hgt
    rw [hao, Ordering.eq_then, compare_gt_iff_gt.2 (Nat.lt_of_not_le hgt)] at h
    cases h
  · rw [hao] at h
    cases h

theorem sound_of_ribFirst (h : RibFirst obs) : CausallySound (sortDeterministic obs) := by
  have hmem := List.pairwise_of_forall_mem_list fun a (ha : a ∈ sortDeterministic obs) b
    (hb : b ∈ sortDeterministic obs) => And.intro (mem_sortBy.1 ha) (mem_sortBy.1 hb)
  refine ((sortBy_pairwise obs).and hmem).imp ?_
  rintro a b ⟨hle, ha, hb⟩ hc ht hu
  refine ⟨?_, archive_le_of_order hc ht hle⟩
  by_contra hb'
  have hlt := h b hb a ha (Bool.eq_false_iff.2 hb') hu hc.symm ht.symm
  rw [CmpLE, OrientedCmp.gt_of_lt hlt] at hle
  cases hle

theorem ribFirst_of_sound (hties : NoTies obs) (h : CausallySound (sortDeterministic obs)) :
    RibFirst obs := by
  intro r hr u hu hrib hupdate hc ht
  have hne : r ≠ u := by
    rintro rfl
    rw [hrib] at hupdate
    cases hupdate
  have hboth := ((sortBy_pairwise obs).and h)
  rcases before_or_before hboth (mem_sortBy.2 hr) (mem_sortBy.2 hu) hne with ⟨hle, -⟩ | ⟨-, hcausal⟩
  · cases hcmp : deterministicObservationOrder r u with
    | lt => rfl
    | eq => exact absurd (hties r hr u hu hcmp) hne
    | gt =>
      rw [CmpLE, hcmp] at hle
      cases hle
  · have hrib' := (hcausal hc.symm ht.symm hupdate).1
    rw [hrib] at hrib'
    cases hrib'

/-- Which multisets come into one, causally sound sequence. -/
theorem deterministicSequence_iff (hid : Identified obs) :
    DeterministicSequence obs ↔ NoTies obs ∧ RibFirst obs := by
  constructor
  · intro h
    have hties := noTies_of_deterministic hid fun obs' hp => (h obs' hp).1
    exact ⟨hties, ribFirst_of_sound hties ((causallySound_assign _).1 (h obs .rfl).2)⟩
  · rintro ⟨hties, hrib⟩ obs' hp
    rw [sortDeterministic_perm hties hp]
    exact ⟨rfl, (causallySound_assign _).2 (sound_of_ribFirst hrib)⟩

end

/-! ## Runs -/

/-- The RIB entry stands sixth in its dump. -/
def dumpEntry : RouteObservation := RouteObservation.plain "rrc00" 5 .ribEntry 0 none [1, 2]

/-- An UPDATE of archive 0 in the same second, second in its file. -/
def firstArchiveUpdate : RouteObservation := RouteObservation.plain "rrc00" 1 .withdrawal 0 none []

/-- The same UPDATE from the next archive. -/
def nextArchiveUpdate : RouteObservation :=
  { firstArchiveUpdate with
    provenance := { firstArchiveUpdate.provenance with archiveOrder := 1 } }

theorem deterministicSequence_nextArchive :
    DeterministicSequence [nextArchiveUpdate, dumpEntry] ↔
      NoTies [nextArchiveUpdate, dumpEntry] ∧ RibFirst [nextArchiveUpdate, dumpEntry] :=
  deterministicSequence_iff (by unfold Identified; decide +kernel)

/-- **Bug**: the withdrawal of the first archive is replayed before the entry it withdraws. -/
theorem update_before_rib_entry :
    ¬ ∀ obs : List RouteObservation, Identified obs → DeterministicSequence obs := by
  intro h
  have hid : Identified [dumpEntry, firstArchiveUpdate] := by
    unfold Identified
    decide +kernel
  have hsound := (h _ hid _ .rfl).2
  have hkinds : (assignDeterministicIds (sortDeterministic [dumpEntry, firstArchiveUpdate])) =
      [{ firstArchiveUpdate with id := 0 }, { dumpEntry with id := 1 }] := by decide +kernel
  rw [hkinds] at hsound
  have hcausal := List.rel_of_pairwise_cons hsound List.mem_cons_self
  have hrib : dumpEntry.fromUpdates = true := (hcausal rfl rfl rfl).1
  cases hrib

end Inim
