import Inim.Catalog.Queries
import Inim.Catalog.Scope
import Inim.Jobs.System

/-!
# The two scope checks (`catalog/web/view.rs:714-764`, `catalog/jobs/plan.rs:143-205`)

| here | there |
| --- | --- |
| `eventScopeExcluded`        | `event_scope_excluded`: what the catalog hides |
| `eventForPlan`              | `jobs/plan.rs:152-174` |
| `planScopeExclusion`        | `plan_scope_exclusion`: the gate of queueing, retrying and executing |

Both ask the policy about the source record. Then the event check reads the title of the latest
snapshot and *every* manifest revision, as untyped JSON; the plan check reads the plan's *own*
revision, as a `Manifest`. Which of two snapshots with one `fetched_at` is the latest is left open
(`SnapshotRows`).

* **Bug**: an event that only its title, or only a revision other than the plan's, names is hidden
  and its plans pass the gate (`titled_event_is_queued`).
* **Bug**: the event check casts an origin number with `as u32`, so a number from 2^32 on matches
  the ASN in its low 32 bits (`originAsU32_exact`), where the check is documented as exact.
* A refused plan hides its event when the payload is a JSON object, as all written ones are
  (`hidden_of_refused`); serde reads a `Manifest` from a JSON array as well, the event check does
  not.

`scopeDecisionsAgree_iff` is the exact condition.
-/

namespace Inim

open Inim.Lib

/-- `serde_json::from_str`, at `Value` and at `Manifest`. -/
structure PayloadReaders where
  parseJson : String → Option Json
  parseManifest : String → Except String Manifest

/-! ## What the event check reads -/

section
variable (read : PayloadReaders)

/-- `from_str(..).unwrap_or_default()`. -/
def PayloadReaders.value (text : String) : Json := (read.parseJson text).getD .null

def snapshotTitle (s : EventSnapshot) : Option String :=
  ((read.value s.normalizedJson).get "title").bind Json.asStr

def payloadLabel (payload : Json) : Option String :=
  ((payload.get "target").bind (·.get "label")).bind Json.asStr

/-- `target.origin_asns`, when it is an array. -/
def payloadOrigins (payload : Json) : List Json :=
  (((payload.get "target").bind (·.get "origin_asns")).bind Json.asArray).getD []

/-- `v.as_u64().map(|n| n as u32)`. -/
def originAsU32 (v : Json) : Option UInt32 := v.asU64.map UInt32.ofNat

/-- What the loop over the revisions asks about one payload. -/
def payloadExcluded (scope : ProjectScope) (payload : Json) : Bool :=
  (payloadLabel payload).any scope.excludedEntityName ||
    scope.anyAsnExcluded ((payloadOrigins payload).filterMap originAsU32)

def latestTitle {c : CatalogTables} {event : Nat} (snapshots : SnapshotRows c event) :
    Option String :=
  snapshots.val.head?.bind fun s => snapshotTitle read s.1

def eventScopeExcluded (scope : ProjectScope) (c : CatalogTables) (event : Nat)
    (snapshots : SnapshotRows c event) (e : CatalogEvent) : Bool :=
  scope.excludedSourceRecord e.sourceKind e.externalId
    || (latestTitle read snapshots).any scope.excludedEntityName
    || (listManifestRevisions c event).any fun r => payloadExcluded scope (read.value r.1.payload)

/-! ## What the plan check reads -/

/-- The event of the plan's manifest revision. -/
def eventForPlan (c : CatalogTables) (plan : Nat) : Except String CatalogEvent :=
  match (do
    let p ← c.plans[plan]?
    let m ← c.manifestRevisions[p.manifestRevisionId]?
    c.events[m.eventId]?) with
  | some e => .ok e
  | none => .error ("cannot resolve event for plan " ++ toString plan ++
      ": Query returned no rows")

/-- The check of a manifest: its label, then its origins. -/
def manifestExclusion (scope : ProjectScope) (m : Manifest) : Option String :=
  match scope.entityNameReason m.target.label with
  | some reason => some reason
  | none =>
    if scope.anyAsnExcluded m.target.originAsns then some reasonProjectOwnerExclusion else none

def planScopeExclusion (scope : ProjectScope) (c : CatalogTables) (plan : Nat) :
    Except String (Option String) := do
  let e ← eventForPlan c plan
  match scope.sourceRecordReason e.sourceKind e.externalId with
  | some reason => return some reason
  | none =>
    match manifestPayloadForPlan c plan with
    | none => return none
    | some payload =>
      match read.parseManifest payload with
      | .error _ => return none
      | .ok m => return manifestExclusion scope m

/-! ## Agreement -/

/-- A plan of the event. -/
structure PlanOfEvent (c : CatalogTables) (event plan : Nat) (m : ManifestRevision) : Prop where
  row : ∃ p, c.plans[plan]? = some p ∧ c.manifestRevisions[p.manifestRevisionId]? = some m
  event_eq : m.eventId = event

/-- The plan is refused. -/
def Refused (scope : ProjectScope) (c : CatalogTables) (plan : Nat) : Prop :=
  ∃ reason, planScopeExclusion read scope c plan = .ok (some reason)

/-- Both checks decide alike, and an ASN that is excluded matches no other number. -/
structure ScopeDecisionsAgree (scope : ProjectScope) (c : CatalogTables) (event : Nat)
    (snapshots : SnapshotRows c event) (e : CatalogEvent) : Prop where
  refused_of_hidden : eventScopeExcluded read scope c event snapshots e = true →
    ∀ plan m, PlanOfEvent c event plan m → Refused read scope c plan
  hidden_of_refused : ∀ plan m, PlanOfEvent c event plan m → Refused read scope c plan →
    eventScopeExcluded read scope c event snapshots e = true
  exact_asns : ∀ r ∈ listManifestRevisions c event, ∀ v ∈ payloadOrigins (read.value r.1.payload),
    ∀ asn, scope.excludedAsn asn = true → originAsU32 v = some asn → v = .int asn.toNat

/-- The payload is a JSON object and so is its `target`. -/
def ObjectForm (payload : String) : Prop :=
  ∃ fields target, read.parseJson payload = some (.obj fields) ∧
    fields.lookup "target" = some (.obj target)

/-- What serde's two readings of one object have in common. -/
structure PayloadReaders.Serde : Prop where
  label : ∀ payload m fields target, read.parseManifest payload = .ok m →
    read.parseJson payload = some (.obj fields) → fields.lookup "target" = some (.obj target) →
    target.lookup "label" = some (.str m.target.label)
  origins : ∀ payload m fields target, read.parseManifest payload = .ok m →
    read.parseJson payload = some (.obj fields) → fields.lookup "target" = some (.obj target) →
    target.lookup "origin_asns" = some (.arr (m.target.originAsns.map fun a => .int a.toNat))

/-- The manifest in the payload has an excluded label or origin. -/
def NamesExcluded (scope : ProjectScope) (payload : String) : Prop :=
  ∃ m, read.parseManifest payload = .ok m ∧
    (scope.excludedEntityName m.target.label = true ∨
      ∃ asn ∈ m.target.originAsns, scope.excludedAsn asn = true)

/-- The evidence the two checks have about an event is the same. -/
structure NamedAlike (scope : ProjectScope) (c : CatalogTables) (event : Nat)
    (snapshots : SnapshotRows c event) : Prop where
  title : ∀ title, latestTitle read snapshots = some title →
    scope.excludedEntityName title = true →
    ∀ plan m, PlanOfEvent c event plan m → NamesExcluded read scope m.payload
  revisions : ∀ r ∈ listManifestRevisions c event,
    payloadExcluded scope (read.value r.1.payload) = true →
    ∀ plan m, PlanOfEvent c event plan m → NamesExcluded read scope m.payload
  arrays : ∀ plan m, PlanOfEvent c event plan m → ¬ObjectForm read m.payload →
    NamesExcluded read scope m.payload →
    (∃ title, latestTitle read snapshots = some title ∧ scope.excludedEntityName title = true) ∨
      ∃ r ∈ listManifestRevisions c event, payloadExcluded scope (read.value r.1.payload) = true

/-- No origin number from 2^32 on has an excluded ASN in its low 32 bits. -/
def NoWrappedOrigin (scope : ProjectScope) (c : CatalogTables) (event : Nat) : Prop :=
  ∀ r ∈ listManifestRevisions c event, ∀ v ∈ payloadOrigins (read.value r.1.payload),
    ∀ n, v.asU64 = some n → 2 ^ 32 ≤ n → scope.excludedAsn (UInt32.ofNat n) = false

end

/-! ## The checks in terms of what they read -/

section
variable {read : PayloadReaders} {scope : ProjectScope} {c : CatalogTables} {event plan : Nat}
  {snapshots : SnapshotRows c event} {e : CatalogEvent} {m : ManifestRevision}
  {entities : List ExcludedEntity} {records : List ExcludedSourceRecord}

theorem eventScopeExcluded_iff :
    eventScopeExcluded read scope c event snapshots e = true ↔
      scope.excludedSourceRecord e.sourceKind e.externalId = true ∨
      (∃ title, latestTitle read snapshots = some title ∧ scope.excludedEntityName title = true) ∨
      ∃ r ∈ listManifestRevisions c event, payloadExcluded scope (read.value r.1.payload) = true := by
  rw [eventScopeExcluded, Bool.or_eq_true, Bool.or_eq_true, List.any_eq_true, Option.any_eq_true,
    or_assoc]

theorem PlanOfEvent.eventForPlan_eq (hp : PlanOfEvent c event plan m) (he : c.events[event]? = some e) :
    eventForPlan c plan = .ok e := by
  obtain ⟨⟨p, hrow, hm⟩, rfl⟩ := hp
  simp [eventForPlan, hrow, hm, he]

theorem PlanOfEvent.payload_eq (hp : PlanOfEvent c event plan m) :
    manifestPayloadForPlan c plan = some m.payload := by
  obtain ⟨⟨p, hrow, hm⟩, -⟩ := hp
  simp [manifestPayloadForPlan, hrow, hm]

/-- The plan's own revision is among those the event check reads. -/
theorem PlanOfEvent.listed (hp : PlanOfEvent c event plan m) :
    ∃ id, (m, id) ∈ listManifestRevisions c event := by
  obtain ⟨⟨p, -, hm⟩, rfl⟩ := hp
  refine ⟨p.manifestRevisionId, List.mem_reverse.2 (List.mem_filter.2 ⟨?_, decide_eq_true rfl⟩)⟩
  exact List.mem_zipIdx_iff_getElem?.2 hm

theorem manifestExclusion_iff (hs : scope.Holds entities records) (man : Manifest) :
    (manifestExclusion scope man).isSome = true ↔
      scope.excludedEntityName man.target.label = true ∨
        ∃ asn ∈ man.target.originAsns, scope.excludedAsn asn = true := by
  rw [← hs.isSome_entityNameReason, ← List.any_eq_true]
  unfold manifestExclusion ProjectScope.anyAsnExcluded
  cases scope.entityNameReason man.target.label with
  | some reason => simp
  | none => by_cases h : man.target.originAsns.any scope.excludedAsn = true <;> simp [h]

theorem refused_iff (hs : scope.Holds entities records) (he : c.events[event]? = some e)
    (hp : PlanOfEvent c event plan m) :
    Refused read scope c plan ↔
      scope.excludedSourceRecord e.sourceKind e.externalId = true ∨
        NamesExcluded read scope m.payload := by
  unfold Refused planScopeExclusion
  rw [hp.eventForPlan_eq he, hp.payload_eq, ← hs.isSome_sourceRecordReason]
  simp only [pure, Except.pure, bind, Except.bind]
  cases scope.sourceRecordReason e.sourceKind e.externalId with
  | some reason => simp
  | none =>
    unfold NamesExcluded
    cases hman : read.parseManifest m.payload with
    | error err => simp
    | ok man =>
      simp [← manifestExclusion_iff hs, Option.isSome_iff_exists]

/-- A refused plan is queued neither anew nor by a retry (`jobs/service.rs`). -/
theorem checkScope_of_refused {jobs : Catalog} {id : Int}
    (hid : jobs.scopeExclusion id = planScopeExclusion read scope c plan)
    (h : Refused read scope c plan) : checkScope jobs id = .error scopeExcludedMessage := by
  obtain ⟨reason, hreason⟩ := h
  rw [checkScope, hid, hreason]
  rfl

/-! ## One payload, read twice -/

theorem originAsU32_int (a : UInt32) : originAsU32 (.int a.toNat) = some a := by
  have hlt : ((a.toNat : Nat) : Int) < 2 ^ 64 := by
    have := a.toNat_lt
    omega
  rw [originAsU32, Json.asU64, if_pos ⟨Int.natCast_nonneg _, hlt⟩, Option.map_some, Int.toNat_natCast,
    UInt32.ofNat_toNat]

/-- A manifest that names an excluded label or origin does so as JSON too. -/
theorem payloadExcluded_of_namesExcluded (hread : read.Serde) {payload : String}
    (hobj : ObjectForm read payload) (h : NamesExcluded read scope payload) :
    payloadExcluded scope (read.value payload) = true := by
  obtain ⟨fields, target, hjson, htarget⟩ := hobj
  obtain ⟨man, hman, h⟩ := h
  have hvalue : read.value payload = .obj fields := by rw [PayloadReaders.value, hjson]; rfl
  have hget : (Json.obj fields).get "target" = some (.obj target) := htarget
  rw [hvalue, payloadExcluded, Bool.or_eq_true]
  rcases h with hlabel | ⟨asn, hasn, hexcluded⟩
  · left
    have hl : payloadLabel (.obj fields) = some man.target.label := by
      rw [payloadLabel, hget, Option.bind_some]
      show (target.lookup "label").bind Json.asStr = _
      rw [hread.label payload man fields target hman hjson htarget]
      rfl
    rw [hl]
    exact hlabel
  · right
    have ho : payloadOrigins (.obj fields) = man.target.originAsns.map fun a => .int a.toNat := by
      rw [payloadOrigins, hget, Option.bind_some]
      show ((target.lookup "origin_asns").bind Json.asArray).getD [] = _
      rw [hread.origins payload man fields target hman hjson htarget]
      rfl
    refine List.any_eq_true.2 ⟨asn, List.mem_filterMap.2 ⟨.int asn.toNat, ?_, ?_⟩, hexcluded⟩
    · rw [ho]
      exact List.mem_map.2 ⟨asn, hasn, rfl⟩
    · exact originAsU32_int asn

theorem asU64_eq_some {v : Json} {n : Nat} (h : v.asU64 = some n) : v = .int n := by
  cases v with
  | int i =>
    rw [Json.asU64] at h
    split at h
    · next hi =>
      obtain rfl := Option.some.inj h
      rw [Int.toNat_of_nonneg hi.1]
    · cases h
  | null | bool _ | float | str _ | arr _ | obj _ => cases h

/-- A number matches only itself, unless it is too large for an ASN. -/
theorem originAsU32_exact {v : Json} {asn : UInt32} (h : originAsU32 v = some asn) :
    v = .int asn.toNat ∨ ∃ n, v.asU64 = some n ∧ 2 ^ 32 ≤ n ∧ UInt32.ofNat n = asn := by
  obtain ⟨n, hn, rfl⟩ := Option.map_eq_some_iff.1 h
  by_cases hlt : n < 2 ^ 32
  · left
    rw [asU64_eq_some hn, UInt32.toNat_ofNat_of_lt' hlt]
  · exact .inr ⟨n, hn, by omega, rfl⟩

theorem exact_asns_iff :
    (∀ r ∈ listManifestRevisions c event, ∀ v ∈ payloadOrigins (read.value r.1.payload),
      ∀ asn, scope.excludedAsn asn = true → originAsU32 v = some asn → v = .int asn.toNat) ↔
      NoWrappedOrigin read scope c event := by
  constructor
  · intro h r hr v hv n hn hlarge
    by_contra hex
    have hv' := h r hr v hv _ (by simpa using hex) (by rw [originAsU32, hn]; rfl)
    rw [asU64_eq_some hn, Json.int.injEq] at hv'
    have := (UInt32.ofNat n).toNat_lt
    omega
  · intro h r hr v hv asn hex hasn
    rcases originAsU32_exact hasn with heq | ⟨n, hn, hlarge, rfl⟩
    · exact heq
    · rw [h r hr v hv n hn hlarge] at hex
      cases hex

/-! ## The agreement -/

/-- A refused plan hides its event, if the payload is an object. -/
theorem hidden_of_refused (hs : scope.Holds entities records) (hread : read.Serde)
    (he : c.events[event]? = some e) (hp : PlanOfEvent c event plan m) (hobj : ObjectForm read m.payload)
    (h : Refused read scope c plan) :
    eventScopeExcluded read scope c event snapshots e = true := by
  rw [eventScopeExcluded_iff]
  rcases (refused_iff hs he hp).1 h with hrec | hnames
  · exact .inl hrec
  · obtain ⟨id, hlisted⟩ := hp.listed
    exact .inr (.inr ⟨_, hlisted, payloadExcluded_of_namesExcluded hread hobj hnames⟩)

/-- When the source record does not decide, the two checks agree on what they name. -/
theorem decisions_iff_namedAlike (snapshots : SnapshotRows c event)
    (hs : scope.Holds entities records) (hread : read.Serde) (he : c.events[event]? = some e)
    (hrec : scope.excludedSourceRecord e.sourceKind e.externalId = false) :
    ((eventScopeExcluded read scope c event snapshots e = true →
        ∀ plan m, PlanOfEvent c event plan m → Refused read scope c plan) ∧
      ∀ plan m, PlanOfEvent c event plan m → Refused read scope c plan →
        eventScopeExcluded read scope c event snapshots e = true) ↔
      NamedAlike read scope c event snapshots := by
  have hrefused {plan : Nat} {m : ManifestRevision} (hp : PlanOfEvent c event plan m) :
      Refused read scope c plan ↔ NamesExcluded read scope m.payload := by
    rw [refused_iff hs he hp, hrec]
    simp
  have hhidden : eventScopeExcluded read scope c event snapshots e = true ↔ _ :=
    eventScopeExcluded_iff
  rw [hrec] at hhidden
  simp only [Bool.false_eq_true, false_or] at hhidden
  constructor
  · rintro ⟨h₁, h₂⟩
    refine ⟨fun title ht hex plan m hp => ?_, fun r hr hex plan m hp => ?_,
      fun plan m hp _ hn => ?_⟩
    · exact (hrefused hp).1 (h₁ (hhidden.2 (.inl ⟨title, ht, hex⟩)) plan m hp)
    · exact (hrefused hp).1 (h₁ (hhidden.2 (.inr ⟨r, hr, hex⟩)) plan m hp)
    · exact hhidden.1 (h₂ plan m hp ((hrefused hp).2 hn))
  · intro h
    refine ⟨fun hh plan m hp => (hrefused hp).2 ?_, fun plan m hp hr => ?_⟩
    · rcases hhidden.1 hh with ⟨title, ht, hex⟩ | ⟨r, hr, hex⟩
      · exact h.title title ht hex plan m hp
      · exact h.revisions r hr hex plan m hp
    · by_cases hobj : ObjectForm read m.payload
      · exact hidden_of_refused hs hread he hp hobj hr
      · exact hhidden.2 (h.arrays plan m hp hobj ((hrefused hp).1 hr))

theorem scopeDecisionsAgree_iff {unprintable : Char → Bool}
    {parseToml : String → Except String ScopeConfigFile} {path : String} {policy : PolicyFile}
    (hload : loadScope unprintable parseToml path policy = .ok scope) (hread : read.Serde)
    (he : c.events[event]? = some e) :
    ScopeDecisionsAgree read scope c event snapshots e ↔
      (scope.excludedSourceRecord e.sourceKind e.externalId = true ∨
        NamedAlike read scope c event snapshots) ∧ NoWrappedOrigin read scope c event := by
  obtain ⟨entities, records, hs⟩ := ProjectScope.holds_of_loadScope hload
  cases hrec : scope.excludedSourceRecord e.sourceKind e.externalId with
  | true =>
    constructor
    · exact fun h => ⟨.inl rfl, exact_asns_iff.1 h.exact_asns⟩
    · rintro ⟨-, hwrap⟩
      refine ⟨fun _ plan m hp => ?_, fun _ _ _ _ => ?_, exact_asns_iff.2 hwrap⟩
      · exact (refused_iff hs he hp).2 (.inl hrec)
      · exact eventScopeExcluded_iff.2 (.inl hrec)
  | false =>
    have hiff := decisions_iff_namedAlike snapshots hs hread he hrec
    constructor
    · exact fun h => ⟨.inr (hiff.1 ⟨h.refused_of_hidden, h.hidden_of_refused⟩),
        exact_asns_iff.1 h.exact_asns⟩
    · rintro ⟨halike | halike, hwrap⟩
      · cases halike
      · obtain ⟨h₁, h₂⟩ := hiff.2 halike
        exact ⟨h₁, h₂, exact_asns_iff.2 hwrap⟩

end

/-! ## A title that no manifest has -/

namespace TitledEvent

def file : ScopeConfigFile :=
  ⟨1, [⟨"sample-org", "Sample Organization", [64512], ["SAMPLE-ORG"], "project_owner_exclusion"⟩],
    []⟩

def scope : ProjectScope :=
  ⟨1, file.excludedEntities, [], [("SAMPLE-ORG", 0), ("SAMPLE ORGANIZATION", 0)], [(64512, 0)], []⟩

def policyText : String :=
  "schema_version = 1\n[[excluded_entities]]\nstable_key = \"sample-org\"\n" ++
  "reviewed_name = \"Sample Organization\"\nreviewed_asns = [64512]\n" ++
  "aliases = [\"SAMPLE-ORG\"]\nreason_code = \"project_owner_exclusion\"\n" ++
  "review_date = \"2026-08-03T00:00:00Z\"\nsource = \"project-owner decision\"\n"

def parsePolicy (text : String) : Except String ScopeConfigFile :=
  if text = policyText then .ok file else .error "missing field schema_version"

theorem loadScope_policy :
    loadScope (fun _ => false) parsePolicy "config/project-scope.toml" (.text policyText) =
      .ok scope := by
  decide +kernel

def titleText : String := jsonObject [("title", jsonString "Sample Organization")]

def targetText : String :=
  jsonObject [("label", jsonString "Sample"), ("origin_asns", jsonArray ["64513"])]

def manifestText : String :=
  jsonObject [("event_id", jsonString "INC-1"), ("schema_version", "2"),
    ("event_window_utc", jsonObject [("start", jsonString "2026-07-30T00:00:00Z"),
      ("end", jsonString "2026-07-30T01:00:00Z")]),
    ("ticket_window_local", jsonObject [("start", jsonString "2026-07-30 00:00"),
      ("end", jsonString "2026-07-30 01:00"), ("timezone", jsonString "UTC")]),
    ("target", targetText), ("collectors", jsonArray [jsonString "route-views2"])]

def manifest : Manifest where
  eventId := "INC-1"
  revision := 0
  schemaVersion := 2
  eventWindowUtc := ⟨"2026-07-30T00:00:00Z", "2026-07-30T01:00:00Z"⟩
  isOpen := false
  analysisEndUtc := none
  warmupMinutes := 0
  cooldownMinutes := 0
  target := ⟨"Sample", [64513], none, none, ⟨.unresolved, none, none⟩⟩
  collectors := ["route-views2"]
  sourceFamily := "RouteViews"
  analystNotes := []

def target : List (String × Json) := [("label", .str "Sample"), ("origin_asns", .arr [.int 64513])]

def manifestJson : Json :=
  .obj [("event_id", .str "INC-1"), ("schema_version", .int 2),
    ("event_window_utc", .obj [("start", .str "2026-07-30T00:00:00Z"),
      ("end", .str "2026-07-30T01:00:00Z")]),
    ("ticket_window_local", .obj [("start", .str "2026-07-30 00:00"),
      ("end", .str "2026-07-30 01:00"), ("timezone", .str "UTC")]),
    ("target", .obj target), ("collectors", .arr [.str "route-views2"])]

def readers : PayloadReaders where
  parseJson text :=
    if text = titleText then some (.obj [("title", .str "Sample Organization")])
    else if text = manifestText then some manifestJson
    else none
  parseManifest text :=
    if text = manifestText then .ok manifest else .error "missing field event_id"

theorem readers_serde : readers.Serde := by
  have htext : manifestText ≠ titleText := by decide +kernel
  have hread (payload : String) (m : Manifest) (fields fields' : List (String × Json))
      (hm : readers.parseManifest payload = .ok m)
      (hj : readers.parseJson payload = some (.obj fields))
      (ht : fields.lookup "target" = some (.obj fields')) : m = manifest ∧ fields' = target := by
    unfold readers at hm hj
    dsimp only at hm hj
    split at hm
    · next heq =>
      subst heq
      rw [if_neg htext, if_pos rfl] at hj
      cases hm
      cases hj
      cases ht
      exact ⟨rfl, rfl⟩
    · cases hm
  refine ⟨fun payload m fields fields' hm hj ht => ?_, fun payload m fields fields' hm hj ht => ?_⟩
  · obtain ⟨rfl, rfl⟩ := hread payload m fields fields' hm hj ht
    rfl
  · obtain ⟨rfl, rfl⟩ := hread payload m fields fields' hm hj ht
    rfl

def event : CatalogEvent :=
  ⟨"local-repository", "INC-1", "2026-07-31T00:00:00Z", "2026-07-31T00:00:00Z"⟩

def snapshot : EventSnapshot :=
  ⟨0, "2026-07-31T00:00:00Z", "file://tests/fixtures/INC-1.json", "s1", "", titleText, "fixture-1"⟩

def revision : ManifestRevision :=
  ⟨0, 0, 2, manifestText, "m1", "Unresolved", some "2026-07-31T00:00:00Z", none⟩

def catalog : CatalogTables where
  events := [event]
  snapshots := [snapshot]
  manifestRevisions := [revision]
  plans := [⟨0, 1, "", "p1", "Ready", none, "2026-07-31T00:00:00Z"⟩]

def snapshots : SnapshotRows catalog 0 :=
  ⟨[(snapshot, 0)], ⟨List.Perm.refl _, List.pairwise_singleton _ _⟩⟩

end TitledEvent

open TitledEvent in
theorem scopeDecisionsAgree_titled :
    ScopeDecisionsAgree readers scope catalog 0 snapshots event ↔
      (scope.excludedSourceRecord event.sourceKind event.externalId = true ∨
        NamedAlike readers scope catalog 0 snapshots) ∧ NoWrappedOrigin readers scope catalog 0 :=
  scopeDecisionsAgree_iff loadScope_policy readers_serde rfl

open TitledEvent in
/-- **Bug**: the ticket is about an excluded organization, the manifest labels it otherwise. The
catalog hides the event, and its plan passes the gate of the queue. -/
theorem titled_event_is_queued :
    loadScope (fun _ => false) parsePolicy "config/project-scope.toml" (.text policyText) =
        .ok scope ∧
      eventScopeExcluded readers scope catalog 0 snapshots event = true ∧
      planScopeExclusion readers scope catalog 0 = .ok none ∧
      ¬ScopeDecisionsAgree readers scope catalog 0 snapshots event := by
  have hhidden : eventScopeExcluded readers scope catalog 0 snapshots event = true := by
    decide +kernel
  have hplan : planScopeExclusion readers scope catalog 0 = .ok none := by decide +kernel
  refine ⟨loadScope_policy, hhidden, hplan, fun h => ?_⟩
  obtain ⟨reason, hreason⟩ := h.refused_of_hidden hhidden 0 revision ⟨⟨_, rfl, rfl⟩, rfl⟩
  rw [hplan] at hreason
  cases hreason

end Inim
