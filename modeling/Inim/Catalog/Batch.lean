import Inim.Catalog.ArchivePlan
import Inim.Lib.Dedup
import Inim.Lib.Tally
/-!
# One archive plan for many events (`catalog/batch.rs`)

| here | there |
| --- | --- |
| `StudyPlan`                                | `ArchivePlan` with its pilot |
| `BatchEventPlan`, `ArchiveConsumer`, `CorrelationBatch` | `batch.rs:30-71` |
| `planArchiveUrls`                          | `plan_archive_urls` (`:84-116`) |
| `enterArchive`, `planBatch`                | `plan_batch` (`:132-207`) |

A batch plans each raw archive once. It reads the events in the order of their ids, so what it plans
does not depend on the order in which they come, and an archive is listed with every event that needs
it (`planBatch_law`).

The sum of the bytes is an `i64`.
-/

namespace Inim

open Std Lib

/-- A plan as it is stored; `π` is its pilot, which nothing here reads. -/
structure StudyPlan (π : Type) extends ArchivePlan where
  pilot : Option π

structure BatchEventPlan (π : Type) where
  eventId : String
  cohort : List String
  warmupStartUtc : DateTime
  incidentStartUtc : DateTime
  incidentEndUtc : DateTime
  cooldownEndUtc : DateTime
  plan : StudyPlan π

structure ArchiveConsumer where
  url : String
  sourceFamily : String
  collector : String
  dataType : String
  consumers : List String
deriving DecidableEq, Repr

structure CorrelationBatch (π : Type) where
  batchId : String
  events : List (BatchEventPlan π)
  uniqueArchives : List ArchiveConsumer
  archivesAvoidedThroughReuse : Nat
  estimatedCompressedBytes : Int
  expectedParseOperations : Nat
  sourceFamilies : List String
  deterministic : Bool

/-- What a plan asks for: an archive with its family, collector, data type and size. -/
structure ArchiveRequest where
  url : String
  family : String
  collector : String
  dataType : String
  size : Int
deriving DecidableEq, Repr

def CollectorPlan.requestOf (c : CollectorPlan) (dataType : String) (f : ExpectedFile) :
    ArchiveRequest :=
  ⟨f.url, c.sourceFamily, c.collector, dataType, f.sizeEstimatedBytes.getD 0⟩

def planArchiveUrls (plan : ArchivePlan) : List ArchiveRequest :=
  plan.collectors.flatMap fun c =>
    c.requestOf "rib" c.baselineRib ::
      (c.validationRib.toList.map (c.requestOf "rib") ++ c.updates.map (c.requestOf "updates"))

structure EventPlanInput (π : Type) where
  eventId : String
  horizon : AnalysisHorizon
  plan : StudyPlan π

/-- The value of the map of archives: its first request, and who asked for it. -/
structure ArchiveEntry where
  family : String
  collector : String
  dataType : String
  size : Int
  consumers : List String
deriving DecidableEq, Repr

/-- `entry(url).or_insert_with(..).4.push(event_id)`. -/
def enterArchive (archives : List (String × ArchiveEntry)) (request : String × ArchiveRequest) :
    List (String × ArchiveEntry) :=
  match archives with
  | [] =>
    let (eventId, r) := request
    [(r.url, ⟨r.family, r.collector, r.dataType, r.size, [eventId]⟩)]
  | (url, e) :: rest =>
    if url = request.2.url then (url, { e with consumers := e.consumers ++ [request.1] }) :: rest
    else (url, e) :: enterArchive rest request

/-- A result of `i64` arithmetic. -/
def wrapI64 (n : Int) : Int := n.bmod (2 ^ 64)

section Plan
variable {π : Type} (sha256 : String → String)

def eventPlanOf (i : EventPlanInput π) : BatchEventPlan π where
  eventId := i.eventId
  cohort := [i.eventId]
  warmupStartUtc := i.horizon.warmupStartUtc
  incidentStartUtc := i.horizon.incidentStartUtc
  incidentEndUtc := i.horizon.incidentEndUtc
  cooldownEndUtc := i.horizon.cooldownEndUtc
  plan := i.plan

/-- The requests of the events, each with the event's id. -/
def batchRequests (events : List (BatchEventPlan π)) : List (String × ArchiveRequest) :=
  events.flatMap fun event => (planArchiveUrls event.plan.toArchivePlan).map (event.eventId, ·)

/-- The map of archives in the order of its keys. -/
def batchArchives (events : List (BatchEventPlan π)) : List (String × ArchiveEntry) :=
  sortBy (compareOn (·.1)) ((batchRequests events).foldl enterArchive [])

def archiveConsumer (archive : String × ArchiveEntry) : ArchiveConsumer :=
  let (url, e) := archive
  ⟨url, e.family, e.collector, e.dataType, sortDedup compare e.consumers⟩

def planBatch (inputs : List (EventPlanInput π)) : CorrelationBatch π :=
  let events := sortBy (compareOn (·.eventId)) (inputs.map eventPlanOf)
  let archives := batchArchives events
  let uniqueArchives := archives.map archiveConsumer
  { batchId := sha256 (",".intercalate (events.map (·.eventId)))
    events := events
    uniqueArchives := uniqueArchives
    archivesAvoidedThroughReuse := (batchRequests events).length - archives.length
    estimatedCompressedBytes := wrapI64 (archives.map (·.2.size)).sum
    expectedParseOperations := archives.length
    sourceFamilies := sortDedup compare (uniqueArchives.map (·.sourceFamily))
    deterministic := true }

end Plan

/-! ## What a plan lists -/

/-- The archive is one of the plan's files. -/
def ArchivePlan.Lists (plan : ArchivePlan) (url : String) : Prop :=
  ∃ c ∈ plan.collectors, c.baselineRib.url = url ∨ (∃ f ∈ c.validationRib, f.url = url) ∨
    ∃ f ∈ c.updates, f.url = url

/-- How many files the plan asks for. -/
def ArchivePlan.fileCount (plan : ArchivePlan) : Nat :=
  (plan.collectors.map fun c => 1 + c.validationRib.toList.length + c.updates.length).sum

theorem exists_planArchiveUrls_iff {plan : ArchivePlan} {url : String} :
    (∃ r ∈ planArchiveUrls plan, r.url = url) ↔ plan.Lists url := by
  unfold planArchiveUrls ArchivePlan.Lists
  constructor
  · rintro ⟨r, hr, rfl⟩
    obtain ⟨c, hc, hr⟩ := List.mem_flatMap.1 hr
    refine ⟨c, hc, ?_⟩
    rcases List.mem_cons.1 hr with rfl | hr
    · exact Or.inl rfl
    · rcases List.mem_append.1 hr with hr | hr
      · obtain ⟨f, hf, rfl⟩ := List.mem_map.1 hr
        exact Or.inr (Or.inl ⟨f, Option.mem_toList.1 hf, rfl⟩)
      · obtain ⟨f, hf, rfl⟩ := List.mem_map.1 hr
        exact Or.inr (Or.inr ⟨f, hf, rfl⟩)
  · rintro ⟨c, hc, h⟩
    suffices ∃ r ∈ c.requestOf "rib" c.baselineRib :: (c.validationRib.toList.map (c.requestOf "rib")
        ++ c.updates.map (c.requestOf "updates")), r.url = url by
      obtain ⟨r, hr, hurl⟩ := this
      exact ⟨r, List.mem_flatMap.2 ⟨c, hc, hr⟩, hurl⟩
    rcases h with rfl | ⟨f, hf, rfl⟩ | ⟨f, hf, rfl⟩
    · exact ⟨_, List.mem_cons_self, rfl⟩
    · exact ⟨_, List.mem_cons_of_mem _ (List.mem_append_left _
        (List.mem_map_of_mem (Option.mem_toList.2 hf))), rfl⟩
    · exact ⟨_, List.mem_cons_of_mem _ (List.mem_append_right _ (List.mem_map_of_mem hf)), rfl⟩

theorem length_planArchiveUrls (plan : ArchivePlan) :
    (planArchiveUrls plan).length = plan.fileCount := by
  unfold planArchiveUrls ArchivePlan.fileCount
  rw [List.length_flatMap]
  refine congrArg List.sum (List.map_congr_left fun c _ => ?_)
  rw [List.length_cons, List.length_append, List.length_map, List.length_map]
  omega

/-! ## The map of archives -/

/-- The entry of a group of requests. -/
def archiveEntryOf : String × List (String × ArchiveRequest) → String × ArchiveEntry
  | (url, []) => (url, ⟨"", "", "", 0, []⟩)
  | (url, first :: rest) => (url, ⟨first.2.family, first.2.collector, first.2.dataType, first.2.size,
      (first :: rest).map (·.1)⟩)

theorem archiveEntryOf_url (g : String × List (String × ArchiveRequest)) : (archiveEntryOf g).1 = g.1 := by
  obtain ⟨url, _ | ⟨first, rest⟩⟩ := g <;> rfl

theorem archiveEntryOf_consumers (g : String × List (String × ArchiveRequest)) :
    (archiveEntryOf g).2.consumers = g.2.map (·.1) := by
  obtain ⟨url, _ | ⟨first, rest⟩⟩ := g <;> rfl

theorem enterArchive_archiveEntryOf (request : String × ArchiveRequest)
    (m : List (String × List (String × ArchiveRequest))) (hm : ∀ g ∈ m, g.2 ≠ []) :
    enterArchive (m.map archiveEntryOf) request = (addTo request.2.url request m).map archiveEntryOf := by
  induction m with
  | nil => rfl
  | cons g m ih =>
    obtain ⟨url, _ | ⟨first, rest⟩⟩ := g
    · exact absurd rfl (hm _ List.mem_cons_self)
    · have ih := ih fun g hg => hm g (List.mem_cons_of_mem _ hg)
      rw [List.map_cons, addTo, archiveEntryOf, enterArchive]
      split
      · simp [archiveEntryOf]
      · rw [List.map_cons, ih]
        rfl

/-- The map groups the requests by their urls. -/
theorem foldl_enterArchive (l : List (String × ArchiveRequest)) :
    l.foldl enterArchive [] = (groupOn (·.2.url) l).map archiveEntryOf := by
  induction l using List.reverseRecOn with
  | nil => rfl
  | append_singleton l request ih =>
    rw [List.foldl_append, List.foldl_cons, List.foldl_nil, ih, groupOn_concat]
    exact enterArchive_archiveEntryOf request _ fun g hg => groupOn_ne_nil _ hg

section Archives
variable {π : Type} (events : List (BatchEventPlan π))

theorem nodup_batchArchives : ((batchArchives events).map (·.1)).Nodup := by
  have hperm := (sortBy_perm (compareOn (·.1)) ((batchRequests events).foldl enterArchive [])).map
    Prod.fst
  refine hperm.nodup_iff.2 ?_
  rw [foldl_enterArchive, List.map_map]
  have hfst : Prod.fst ∘ archiveEntryOf = Prod.fst := funext archiveEntryOf_url
  rw [hfst]
  exact map_fst_groupOn_nodup _ _

variable {events}

/-- An archive of the map, and who asked for it. -/
theorem mem_batchArchives {url : String} {e : ArchiveEntry} (h : (url, e) ∈ batchArchives events) :
    (∃ request ∈ batchRequests events, request.2.url = url) ∧
      e.consumers = ((batchRequests events).filter fun r => r.2.url = url).map (·.1) := by
  rw [batchArchives, mem_sortBy, foldl_enterArchive] at h
  obtain ⟨⟨url', group⟩, hg, he⟩ := List.mem_map.1 h
  obtain ⟨hasked, rfl⟩ := (mem_groupOn _).1 hg
  have hurl : url' = url := (archiveEntryOf_url _).symm.trans (congrArg Prod.fst he)
  have hconsumers := (archiveEntryOf_consumers _).symm.trans (congrArg (·.2.consumers) he)
  subst hurl
  exact ⟨hasked, hconsumers.symm⟩

theorem mem_batchArchives_url {url : String} : url ∈ (batchArchives events).map (·.1) ↔
    ∃ request ∈ batchRequests events, request.2.url = url := by
  constructor
  · intro h
    obtain ⟨⟨url, e⟩, hmem, rfl⟩ := List.mem_map.1 h
    exact (mem_batchArchives hmem).1
  · intro h
    have hgroup := (mem_map_fst_groupOn _).2 h
    obtain ⟨g, hg, rfl⟩ := List.mem_map.1 hgroup
    refine List.mem_map.2 ⟨archiveEntryOf g, ?_, archiveEntryOf_url g⟩
    rw [batchArchives, mem_sortBy, foldl_enterArchive]
    exact List.mem_map_of_mem hg

theorem mem_batchRequests {id : String} {r : ArchiveRequest} : (id, r) ∈ batchRequests events ↔
    ∃ e ∈ events, e.eventId = id ∧ r ∈ planArchiveUrls e.plan.toArchivePlan := by
  unfold batchRequests
  constructor
  · intro h
    obtain ⟨e, he, h⟩ := List.mem_flatMap.1 h
    obtain ⟨r', hr', heq⟩ := List.mem_map.1 h
    cases heq
    exact ⟨e, he, rfl, hr'⟩
  · rintro ⟨e, he, rfl, hr⟩
    exact List.mem_flatMap.2 ⟨e, he, List.mem_map_of_mem hr⟩

/-- There are no more archives than requests. -/
theorem length_batchArchives_le : (batchArchives events).length ≤ (batchRequests events).length := by
  have hsub : (batchArchives events).map (·.1) ⊆ (batchRequests events).map (·.2.url) := by
    intro url h
    obtain ⟨request, hr, rfl⟩ := mem_batchArchives_url.1 h
    exact List.mem_map_of_mem hr
  have hle := ((nodup_batchArchives events).subperm hsub).length_le
  rwa [List.length_map, List.length_map] at hle

end Archives

/-! ## The batch -/

/-- What a batch plan says of the events it is made from. -/
structure BatchLaw {π : Type} (inputs : List (EventPlanInput π)) (b : CorrelationBatch π) : Prop where
  archives : ∀ url, url ∈ b.uniqueArchives.map (·.url) ↔ ∃ i ∈ inputs, i.plan.Lists url
  unique : (b.uniqueArchives.map (·.url)).Nodup
  consumers : ∀ a ∈ b.uniqueArchives, ∀ id,
    id ∈ a.consumers ↔ ∃ i ∈ inputs, i.eventId = id ∧ i.plan.Lists a.url
  total : (inputs.map (·.plan.fileCount)).sum =
    b.uniqueArchives.length + b.archivesAvoidedThroughReuse
  /-- Each event has its own plan, as it was. -/
  plans : (b.events.map fun e => (e.eventId, e.plan)).Perm (inputs.map fun i => (i.eventId, i.plan))

section Law
variable {π : Type} (sha256 : String → String) {inputs : List (EventPlanInput π)}

/-- The events in the order they are read in. -/
def sortedEvents (inputs : List (EventPlanInput π)) : List (BatchEventPlan π) :=
  sortBy (compareOn (·.eventId)) (inputs.map eventPlanOf)

theorem mem_sortedEvents {e : BatchEventPlan π} :
    e ∈ sortedEvents inputs ↔ ∃ i ∈ inputs, eventPlanOf i = e := by
  rw [sortedEvents, mem_sortBy, List.mem_map]

theorem length_batchRequests :
    (batchRequests (sortedEvents inputs)).length = (inputs.map (·.plan.fileCount)).sum := by
  have hperm := (sortBy_perm (compareOn (·.eventId)) (inputs.map eventPlanOf)).map
    fun e => e.plan.fileCount
  rw [batchRequests, List.length_flatMap]
  simp only [List.length_map, length_planArchiveUrls]
  rw [sortedEvents, hperm.sum_eq, List.map_map]
  rfl

theorem uniqueArchives_url : (planBatch sha256 inputs).uniqueArchives.map (·.url) =
    (batchArchives (sortedEvents inputs)).map (·.1) := by
  rw [planBatch, List.map_map]
  rfl

theorem planBatch_batchLaw : BatchLaw inputs (planBatch sha256 inputs) where
  archives url := by
    rw [uniqueArchives_url, mem_batchArchives_url]
    constructor
    · rintro ⟨⟨id, r⟩, hr, rfl⟩
      obtain ⟨e, he, -, hr⟩ := mem_batchRequests.1 hr
      obtain ⟨i, hi, rfl⟩ := mem_sortedEvents.1 he
      exact ⟨i, hi, exists_planArchiveUrls_iff.1 ⟨r, hr, rfl⟩⟩
    · rintro ⟨i, hi, hlists⟩
      obtain ⟨r, hr, rfl⟩ := exists_planArchiveUrls_iff.2 hlists
      exact ⟨(i.eventId, r), mem_batchRequests.2 ⟨eventPlanOf i, mem_sortedEvents.2 ⟨i, hi, rfl⟩, rfl, hr⟩,
        rfl⟩
  unique := by
    rw [uniqueArchives_url]
    exact nodup_batchArchives _
  consumers a ha id := by
    obtain ⟨⟨url, entry⟩, hmem, rfl⟩ := List.mem_map.1 ha
    obtain ⟨-, hconsumers⟩ := mem_batchArchives hmem
    rw [archiveConsumer, mem_sortDedup, hconsumers]
    constructor
    · intro h
      obtain ⟨⟨id, r⟩, hr, rfl⟩ := List.mem_map.1 h
      obtain ⟨hr, hurl⟩ := List.mem_filter.1 hr
      obtain ⟨e, he, hid, hr⟩ := mem_batchRequests.1 hr
      obtain ⟨i, hi, rfl⟩ := mem_sortedEvents.1 he
      exact ⟨i, hi, hid, exists_planArchiveUrls_iff.1 ⟨r, hr, of_decide_eq_true hurl⟩⟩
    · rintro ⟨i, hi, rfl, hlists⟩
      obtain ⟨r, hr, hurl⟩ := exists_planArchiveUrls_iff.2 hlists
      refine List.mem_map.2 ⟨(i.eventId, r), List.mem_filter.2 ⟨?_, decide_eq_true hurl⟩, rfl⟩
      exact mem_batchRequests.2 ⟨eventPlanOf i, mem_sortedEvents.2 ⟨i, hi, rfl⟩, rfl, hr⟩
  total := by
    have hle := @length_batchArchives_le _ (sortedEvents inputs)
    rw [← length_batchRequests, planBatch, List.length_map]
    exact (Nat.add_sub_cancel' hle).symm
  plans := by
    have hperm := (sortBy_perm (compareOn (·.eventId)) (inputs.map eventPlanOf)).map
      fun e => (e.eventId, e.plan)
    refine hperm.trans ?_
    rw [List.map_map]
    exact .refl _

theorem planBatch_perm {inputs' : List (EventPlanInput π)} (hids : (inputs.map (·.eventId)).Nodup)
    (h : inputs'.Perm inputs) : planBatch sha256 inputs' = planBatch sha256 inputs := by
  have hevents : sortedEvents inputs' = sortedEvents inputs := by
    refine sortBy_eq_of_perm (h.map eventPlanOf) fun e he e' he' htie => ?_
    obtain ⟨i, hi, rfl⟩ := List.mem_map.1 he
    obtain ⟨i', hi', rfl⟩ := List.mem_map.1 he'
    have hid : i.eventId = i'.eventId := LawfulEqCmp.eq_of_compare htie
    exact congrArg eventPlanOf (List.inj_on_of_nodup_map hids (h.mem_iff.1 hi) (h.mem_iff.1 hi') hid)
  unfold planBatch
  rw [← sortedEvents, ← sortedEvents, hevents]

/-- **The batch plan** lists the union of the events' archives, each with the events whose plan has it,
and is the same in whatever order the events come. -/
theorem planBatch_law (hids : (inputs.map (·.eventId)).Nodup) :
    BatchLaw inputs (planBatch sha256 inputs) ∧
      ∀ inputs', inputs'.Perm inputs → planBatch sha256 inputs' = planBatch sha256 inputs :=
  ⟨planBatch_batchLaw sha256, fun _ h => planBatch_perm sha256 hids h⟩

end Law

namespace BatchSample

def collectorPlan (updates : List String) : CollectorPlan where
  collector := "rrc00"
  sourceFamily := "RipeRis"
  availability := ""
  baselineRib := ⟨"bview.20190821.0000.gz", some ribEstimatedBytes, true⟩
  validationRib := none
  updates := updates.map fun url => ⟨url, some updateEstimatedBytes, true⟩
  firstUpdateUtc := ""
  lastUpdateUtc := ""
  uncoveredIntervals := []
  duplicateUrls := 0
  estimatedCompressedBytes := 0
  estimatedUncompressedBytes := 0

def input (eventId : String) (updates : List String) : EventPlanInput Unit where
  eventId := eventId
  horizon := ⟨0, 0, 0, 0, 1, 1, true⟩
  plan := ⟨⟨[collectorPlan updates], [], [], 0, 0, true, []⟩, none⟩

/-- Two events that share the RIB and one update. -/
def overlapping : List (EventPlanInput Unit) :=
  [input "INC0000002" ["updates.20190821.0005.gz", "updates.20190821.0010.gz"],
    input "INC0000001" ["updates.20190821.0000.gz", "updates.20190821.0005.gz"]]

theorem planBatch_law_overlapping : BatchLaw overlapping (planBatch id overlapping) ∧
    ∀ inputs', inputs'.Perm overlapping → planBatch id inputs' = planBatch id overlapping :=
  planBatch_law id (by decide)

example : (planBatch id overlapping).archivesAvoidedThroughReuse = 2 := by decide +kernel

end BatchSample

end Inim
