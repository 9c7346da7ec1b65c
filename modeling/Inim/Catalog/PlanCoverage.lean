import Inim.Catalog.ArchiveNames
/-!
# What the archive plan covers (`catalog/archive_plan.rs:345-410`, `discover.rs:179-197`)

"Reconstruction contract per collector: baseline RIB — the latest RIB at or before warmup_start;
updates — every 5-minute UPDATE intersecting [warmup_start, cooldown_end]." The plan keeps it
(`planCovers_of_build`). The executor starts elsewhere: `select_updates` takes what begins from half
an hour before the RIB on, and the RIB is up to two hours, or eight, before the warm-up. Of the slots
it selects the plan has exactly the ones that reach into the warm-up.

| here | there |
| --- | --- |
| `slotItem`     | an UPDATE archive of the grid, as the broker lists it |
| `GridSelected` | `select_updates` takes the slot from a listing of the grid |
| `PlanCovers`   | the contract, against that selection |
-/

namespace Inim

open Lib

def slotStep : Int := updateIntervalSecs * 1000000000

/-- A slot of the UPDATE grid. -/
def UpdateSlot (u : DateTime) : Prop := u % slotStep = 0

/-- Every time of the interval is in one of the slots. -/
def Covers (slots : List DateTime) (lo hi : DateTime) : Prop :=
  ∀ t, lo ≤ t → t ≤ hi → ∃ u ∈ slots, u ≤ t ∧ t < u + slotStep

def SourceFamily.brokerProject : SourceFamily → String
  | .routeViews => "routeviews"
  | .ripeRis => "riperis"

def slotItem (source : SourceFamily × String) (u : DateTime) : ArchiveItem where
  project := source.1.brokerProject
  collectorId := source.2
  dataType := "updates"
  tsStart := u
  tsEnd := u + slotStep
  url := archiveUrlFor source.1 source.2 u "UPDATES"
  size := 0

/-- The selection for a RIB takes the slot `u` from a listing of slots. -/
def GridSelected (source : SourceFamily × String) (ribTimestamp cooldownEnd : DateTime)
    (slots : List DateTime) (u : DateTime) : Prop :=
  ∃ selected, selectUpdates (slots.map (slotItem source)) ribTimestamp cooldownEnd = some selected ∧
    (slotItem source u).url ∈ selected.map (·.url)

theorem UpdateSlot.onGrid {u : DateTime} (h : UpdateSlot u) : OnGrid "UPDATES" u := by
  refine Or.inr ⟨rfl, ?_⟩
  simp only [UpdateSlot, slotStep, updateIntervalSecs, minuteNanos, DateTime] at *
  omega

/-! ## The start of a slot -/

theorem le_length_padZero (w n : Nat) : w ≤ (padZero w n).length := by
  rw [padZero, List.length_append, List.length_replicate]
  omega

theorem byteLength_dateText {t : DateTime} (h : ¬FourDigitYear t) : byteLength (dateText t) ≠ 8 := by
  obtain ⟨hm, hd⟩ := date_lt t
  have hsign : ∀ y : Int, (if 0 ≤ y then '+' else '-').utf8Size = 1 := by
    intro y
    split <;> rfl
  have hyear := le_length_padZero 4 (dateOf t).year.natAbs
  rw [dateText, formatYear, if_neg fun hy => h ⟨hy.1, hy.2⟩, byteLength_append, byteLength_append,
    byteLength_cons, hsign, byteLength_digits (padZero_digits _ _), byteLength_padZero (by decide) hm,
    byteLength_padZero (by decide) hd]
  omega

/-- A slot starts at its time in every year: a year of more digits is not read at all. -/
theorem canonicalTsStart_slotItem {source : SourceFamily × String} {u : DateTime} (h : UpdateSlot u) :
    canonicalTsStart (slotItem source u) = some u := by
  by_cases hyear : FourDigitYear u
  · exact canonicalTsStart_archiveUrlFor h.onGrid hyear rfl rfl
  · have hfields : stampFields (slotItem source u).url = none := by
      change stampFields (archiveUrlFor source.1 source.2 u "UPDATES") = none
      rw [stampFields, fileName_archiveUrlFor h.onGrid]
      simp only [splitOn_urlName]
      refine if_neg fun hlen => byteLength_dateText hyear ?_
      exact hlen.2.1
    unfold canonicalTsStart
    rw [filenameTimestamp_eq, hfields]
    rfl

/-- What the selection takes of the grid: from half an hour before the RIB to the end. -/
theorem gridSelected_iff {source : SourceFamily × String} {ribTimestamp cooldownEnd : DateTime}
    {slots : List DateTime} (hslots : ∀ v ∈ slots, UpdateSlot v) {u : DateTime} (hu : u ∈ slots) :
    GridSelected source ribTimestamp cooldownEnd slots u ↔
      ribTimestamp - minutes updateCadenceToleranceMinutes ≤ u ∧ u ≤ cooldownEnd := by
  have hcanon {v : DateTime} (hv : v ∈ slots) : canonicalTsStart (slotItem source v) = some v :=
    canonicalTsStart_slotItem (hslots v hv)
  obtain ⟨selected, hsel, -, -, hmem, -⟩ : SelectionLaw (slots.map (slotItem source)) ribTimestamp
      cooldownEnd := by
    refine selectionLaw_of_readable fun item hitem _ => ?_
    obtain ⟨v, hv, rfl⟩ := List.mem_map.1 hitem
    rw [← canonicalTsStart_isSome_iff, hcanon hv]
    rfl
  have hselected : GridSelected source ribTimestamp cooldownEnd slots u ↔
      (slotItem source u).url ∈ selected.map (·.url) := by
    constructor
    · rintro ⟨selected', hsel', h⟩
      rwa [Option.some.inj (hsel.symm.trans hsel')]
    · exact fun h => ⟨selected, hsel, h⟩
  rw [hselected, hmem]
  constructor
  · rintro ⟨item, hitem, ⟨-, t, ht, hlo, hhi⟩, hurl⟩
    obtain ⟨v, hv, rfl⟩ := List.mem_map.1 hitem
    rw [hcanon hv] at ht
    obtain rfl := Option.some.inj ht
    -- the name is the slot's own
    obtain rfl : v = u := archiveUrlFor_inj (hslots v hv).onGrid (hslots u hu).onGrid hurl
    exact ⟨hlo, hhi⟩
  · rintro ⟨hlo, hhi⟩
    exact ⟨_, List.mem_map_of_mem hu, ⟨rfl, u, hcanon hu, hlo, hhi⟩, rfl⟩

/-! ## The contract -/

/-- The plan of a collector, for a window: its RIB is not after the warm-up, its UPDATEs cover the
window, and of what the executor selects for the RIB they are the slots that reach into the window. -/
structure PlanCovers (warmupStart cooldownEnd : DateTime) (source : SourceFamily × String)
    (c : CollectorPlan) (rib : DateTime) : Prop where
  rib_eq : floorTo warmupStart source.1.ribIntervalSecs = some rib
  baseline : c.baselineRib = ribFile source.1 source.2 rib
  rib_le : rib ≤ warmupStart
  rib_read : FourDigitYear rib → filenameTimestamp c.baselineRib.url = some (some rib)
  covers : ∃ slots, c.updates = slots.map (updateFile source.1 source.2) ∧
    (∀ u ∈ slots, UpdateSlot u) ∧ Covers slots warmupStart cooldownEnd
  selected : ∀ slots, (∀ v ∈ slots, UpdateSlot v) → ∀ u ∈ slots,
    GridSelected source rib cooldownEnd slots u →
      (updateFile source.1 source.2 u ∈ c.updates ↔ warmupStart < u + slotStep)

/-- The plan is enough for the executor: all that is selected for the RIB is planned. -/
def PlanSuffices (warmupStart cooldownEnd : DateTime) (source : SourceFamily × String)
    (c : CollectorPlan) : Prop :=
  ∀ rib, floorTo warmupStart source.1.ribIntervalSecs = some rib → ∀ slots, (∀ v ∈ slots, UpdateSlot v) →
    ∀ u ∈ slots, GridSelected source rib cooldownEnd slots u →
      updateFile source.1 source.2 u ∈ c.updates

theorem floorTo_rib_onGrid {family : SourceFamily} {t rib : DateTime}
    (h : floorTo t family.ribIntervalSecs = some rib) : OnGrid "RIBS" rib ∧ rib ≤ t := by
  have hrib := floorTo_eq h
  refine ⟨Or.inl ⟨rfl, ?_⟩, ?_⟩ <;>
    cases family <;> simp only [SourceFamily.ribIntervalSecs, hourNanos, DateTime] at * <;> omega

theorem planned_slot {t first : DateTime} (h : floorTo t updateIntervalSecs = some first) :
    UpdateSlot first ∧ first ≤ t ∧ t < first + slotStep := by
  have hfirst := floorTo_eq h
  simp only [UpdateSlot, slotStep, updateIntervalSecs, DateTime] at *
  omega

theorem slot_of_mem_gridSlots {first last u : DateTime} (hfirst : UpdateSlot first)
    (hu : u ∈ gridSlots first last) : UpdateSlot u := by
  have hmod := (mem_gridSlots.1 hu).2.2
  simp only [UpdateSlot, slotStep, updateIntervalSecs, DateTime] at *
  omega

theorem updateFile_injective {source : SourceFamily × String} {u v : DateTime} (hu : UpdateSlot u)
    (hv : UpdateSlot v) (h : updateFile source.1 source.2 u = updateFile source.1 source.2 v) : u = v :=
  archiveUrlFor_inj hu.onGrid hv.onGrid (congrArg ExpectedFile.url h)

/-- The plan of one collector keeps the contract. -/
theorem PlannedFor.covers {warmupStart cooldownEnd : DateTime} {source : SourceFamily × String}
    {c : CollectorPlan} {rib first last : DateTime}
    (h : PlannedFor warmupStart cooldownEnd source c rib first last) :
    PlanCovers warmupStart cooldownEnd source c rib := by
  obtain ⟨hrib, hle⟩ := floorTo_rib_onGrid h.rib_eq
  obtain ⟨hfirst, hfirst_le, hfirst_lt⟩ := planned_slot h.first_eq
  obtain ⟨hlast, hlast_le, hlast_lt⟩ := planned_slot h.last_eq
  have hslots : ∀ u ∈ gridSlots first last, UpdateSlot u := fun u => slot_of_mem_gridSlots hfirst
  refine ⟨h.rib_eq, h.baseline, hle, fun hyear => ?_, ⟨_, h.updates, hslots, ?_⟩, ?_⟩
  · rw [h.baseline]
    exact filenameTimestamp_archiveUrlFor_of_onGrid hrib hyear source.1 source.2
  · -- a time is in the slot it is rounded down to
    intro t hlo hhi
    refine ⟨t - t % slotStep, mem_gridSlots.2 ?_, ?_, ?_⟩ <;>
      simp only [UpdateSlot, slotStep, updateIntervalSecs, DateTime] at * <;> omega
  · intro slots hall u hu hsel
    have hslot := hall u hu
    have hend := ((gridSelected_iff hall hu).1 hsel).2
    have hmem : updateFile source.1 source.2 u ∈ c.updates ↔ u ∈ gridSlots first last := by
      rw [h.updates, List.mem_map]
      constructor
      · rintro ⟨v, hv, heq⟩
        rwa [← updateFile_injective (hslots v hv) hslot heq]
      · exact fun hu => ⟨u, hu, rfl⟩
    rw [hmem, mem_gridSlots]
    simp only [UpdateSlot, slotStep, updateIntervalSecs, DateTime] at *
    omega

/-- **The contract of a plan**, for every window, families and their collectors. -/
theorem planCovers_of_build {parse : String → Option DateTime} {cs : StudyWindow}
    {targets : List StudyTarget} {warmupHours cooldownHours : Int} {families : List SourceFamily}
    {horizon : AnalysisHorizon} {plan : ArchivePlan}
    (h : buildPlanForFamilies parse cs targets warmupHours cooldownHours families =
      some (.ok (horizon, plan))) :
    List.Forall₂ (fun source c => ∃ rib,
        PlanCovers horizon.warmupStartUtc horizon.cooldownEndUtc source c rib)
      (planSources families) plan.collectors :=
  (buildPlanForFamilies_ok h).1.imp fun _ _ ⟨rib, _, _, hplanned⟩ => ⟨rib, hplanned.covers⟩

/-- No collector's plan is enough: the slot half an hour before the RIB is selected. -/
theorem PlannedFor.not_suffices {warmupStart cooldownEnd : DateTime} {source : SourceFamily × String}
    {c : CollectorPlan} {rib first last : DateTime}
    (h : PlannedFor warmupStart cooldownEnd source c rib first last)
    (hcooldown : warmupStart ≤ cooldownEnd) : ¬PlanSuffices warmupStart cooldownEnd source c := by
  intro hsuffices
  obtain ⟨hrib, hle⟩ := floorTo_rib_onGrid h.rib_eq
  obtain ⟨hfirst, hfirst_le, hfirst_lt⟩ := planned_slot h.first_eq
  have hslot : UpdateSlot (rib - minutes updateCadenceToleranceMinutes) := by
    have hhour : rib % hourNanos = 0 := hrib.elim And.right fun h => absurd h.1 (by decide)
    simp only [UpdateSlot, slotStep, updateIntervalSecs, minutes, updateCadenceToleranceMinutes,
      hourNanos, DateTime] at *
    omega
  have hall : ∀ v ∈ [rib - minutes updateCadenceToleranceMinutes], UpdateSlot v := by
    simpa using hslot
  have hsel : GridSelected source rib cooldownEnd [rib - minutes updateCadenceToleranceMinutes]
      (rib - minutes updateCadenceToleranceMinutes) := by
    refine (gridSelected_iff hall List.mem_cons_self).2 ⟨Int.le_refl _, ?_⟩
    simp only [minutes, updateCadenceToleranceMinutes, DateTime] at *
    omega
  have hplanned := (h.covers.selected _ hall _ List.mem_cons_self hsel).1
    (hsuffices rib h.rib_eq _ hall _ List.mem_cons_self hsel)
  simp only [slotStep, updateIntervalSecs, minutes, updateCadenceToleranceMinutes, DateTime] at *
  omega

namespace StudySample

theorem planned_ok (warmupHours : Int) (family : SourceFamily) {n : Nat}
    (h : ((planned warmupHours family).bind Except.toOption).map
      (fun r => (r.1.warmupStartUtc, r.1.cooldownEndUtc, r.2.collectors.length)) =
        some (four - warmupHours * hourNanos, four + 10 * minuteNanos, n)) :
    ∃ horizon plan, planned warmupHours family = some (.ok (horizon, plan)) ∧
      horizon.warmupStartUtc = four - warmupHours * hourNanos ∧
      horizon.cooldownEndUtc = four + 10 * minuteNanos ∧ plan.collectors.length = n := by
  obtain ⟨⟨horizon, plan⟩, hr, hvalues⟩ := Option.map_eq_some_iff.1 h
  obtain ⟨r, hbuild, hr⟩ := Option.bind_eq_some_iff.1 hr
  cases r with
  | error => cases hr
  | ok r =>
    cases hr
    simp only [Prod.mk.injEq] at hvalues
    exact ⟨horizon, plan, hbuild, hvalues.1, hvalues.2.1, hvalues.2.2⟩

/-- RIPE RIS, two hours of warm-up before four: the RIB is of midnight, the UPDATEs begin at two. -/
theorem ris_not_suffices : ∃ horizon plan, planned 2 .ripeRis = some (.ok (horizon, plan)) ∧
    ¬List.Forall₂ (PlanSuffices horizon.warmupStartUtc horizon.cooldownEndUtc)
      (planSources [.ripeRis]) plan.collectors := by
  obtain ⟨horizon, plan, hbuild, hwarmup, hcooldown, -⟩ :=
    planned_ok 2 .ripeRis (n := 2) (by decide +kernel)
  refine ⟨horizon, plan, hbuild, fun h => ?_⟩
  have hplanned := (buildPlanForFamilies_ok hbuild).1
  rw [hwarmup, hcooldown] at h hplanned
  change List.Forall₂ _ [(SourceFamily.ripeRis, "rrc00"), (SourceFamily.ripeRis, "rrc01")] _ at h hplanned
  generalize plan.collectors = collectors at h hplanned
  cases hplanned with
  | cons hfirst _ =>
    obtain ⟨rib, first, last, hfirst⟩ := hfirst
    cases h with
    | cons hsuffices _ => exact hfirst.not_suffices (by decide) hsuffices

/-- The plan of the same ten minutes, with two collectors. -/
theorem planCovers_ris : ∃ horizon plan, planned 2 .ripeRis = some (.ok (horizon, plan)) ∧
    plan.collectors.length = 2 ∧ List.Forall₂ (fun source c => ∃ rib,
        PlanCovers horizon.warmupStartUtc horizon.cooldownEndUtc source c rib)
      (planSources [.ripeRis]) plan.collectors := by
  obtain ⟨horizon, plan, hbuild, -, -, hlen⟩ := planned_ok 2 .ripeRis (n := 2) (by decide +kernel)
  exact ⟨horizon, plan, hbuild, hlen, planCovers_of_build hbuild⟩

end StudySample

end Inim
